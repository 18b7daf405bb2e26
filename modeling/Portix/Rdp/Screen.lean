import Portix.Rdp.FrameViewer

/-!
# The screen of a session

The frames of `RdpRuntime::run` (`infrastructure/rdp_client.rs`), from the image that the session decodes to the
viewer that was opened for it. The frames under way to it are a queue; a subscriber of the frame channel that lags
behind misses the first ones, and goes on.
-/

namespace Portix.Rdp

open Lib

structure DecodedImage where
  width : UInt16
  height : UInt16
  stride : Nat
  data : List UInt8
  deriving DecidableEq

namespace DecodedImage

def rowBytes (image : DecodedImage) : Nat := image.width.toNat * 4

/-- The first rows are copied, each from where the stride puts it. -/
def copyRows (image : DecodedImage) (data : List UInt8) : Nat → List UInt8
  | 0 => data
  | row + 1 => setRange (image.copyRows data row) (row * image.rowBytes) (row * image.rowBytes + image.rowBytes)
      image.data (row * image.stride)

def solid (data : List UInt8) : List UInt8 := data.mapIdx fun i sample => if i % 4 = 3 then 0xFF else sample

def frameData (image : DecodedImage) : List UInt8 :=
  solid (image.copyRows (List.replicate (image.rowBytes * image.height.toNat) 0) image.height.toNat)

/-- The checks of `emit_full_frame`. The pixels have four bytes, as the image is made with. -/
def Whole (image : DecodedImage) : Prop :=
  0 < image.width ∧ 0 < image.height ∧ image.rowBytes ≤ image.stride ∧
    image.stride * image.height.toNat ≤ image.data.length

instance (image : DecodedImage) : Decidable image.Whole := inferInstanceAs (Decidable (_ ∧ _ ∧ _ ∧ _))

theorem length_copyRows {image : DecodedImage} (hwhole : image.Whole) {data : List UInt8} {rows : Nat}
    (hrows : rows ≤ image.height.toNat) (hdata : data.length = image.rowBytes * image.height.toNat) :
    (image.copyRows data rows).length = data.length := by
  induction rows with
  | zero => rfl
  | succ row ih =>
    obtain ⟨-, -, hstride, hlength⟩ := hwhole
    have hto := Nat.mul_le_mul_right image.rowBytes hrows
    have hfrom := Nat.mul_le_mul_right image.stride hrows
    rw [Nat.add_mul, Nat.one_mul] at hto hfrom
    rw [Nat.mul_comm] at hdata hlength
    rw [copyRows, length_setRange (by omega) (by rw [ih (by omega)]; omega) (by omega), ih (by omega)]

theorem length_frameData {image : DecodedImage} (hwhole : image.Whole) :
    image.frameData.length = image.rowBytes * image.height.toNat := by
  rw [frameData, solid, List.length_mapIdx, length_copyRows hwhole (Nat.le_refl _) List.length_replicate,
    List.length_replicate]

theorem frameData_fits {image : DecodedImage} (hwhole : image.Whole) : image.frameData.length < 2 ^ 63 := by
  have hwidth := image.width.toNat_lt
  have hheight := image.height.toNat_lt
  rw [length_frameData hwhole, rowBytes]
  calc image.width.toNat * 4 * image.height.toNat ≤ 2 ^ 16 * 4 * 2 ^ 16 := by gcongr
    _ < 2 ^ 63 := by decide

/-- `emit_full_frame`: the image without its padding, and with every pixel opaque. -/
def fullFrame (image : DecodedImage) : Option RdpFrameEvent :=
  if hwhole : image.Whole then
    some ⟨image.frameData, frameData_fits hwhole, image.width.toNat, image.height.toNat, 0, 0⟩
  else none

/-- The pixel in a column and a row, opaque. -/
def pixel (image : DecodedImage) (px py : Nat) : List UInt8 :=
  (image.data.drop (py * image.stride + px * 4)).take 3 ++ [0xFF]

end DecodedImage

/-- The image of the session, the frames on their way, and the viewer that draws them. -/
structure Screen where
  image : DecodedImage
  frameDirty : Bool
  underWay : List RdpFrameEvent
  viewer : FrameViewer

inductive ScreenEvent where
  | pdu (image : DecodedImage) (updated : Bool)
  | frameTick
  | lagged (missed : Nat)
  | delivered
  | timer
  | decoded

/-- What a step makes are the images that were updated. -/
def Screen.step (d : Desktop) (s : Screen) : ScreenEvent → Option (Screen × List DecodedImage)
  | .pdu image updated =>
    some ({ s with image := image, frameDirty := s.frameDirty || updated }, if updated then [image] else [])
  | .frameTick => some
    (if s.frameDirty then { s with underWay := s.underWay ++ s.image.fullFrame.toList, frameDirty := false } else s, [])
  | .lagged missed => some ({ s with underWay := s.underWay.drop missed }, [])
  | .delivered => match s.underWay with
    | [] => none
    | frame :: rest => some ({ s with underWay := rest, viewer := s.viewer.step d (.frame frame) }, [])
  | .timer => some ({ s with viewer := s.viewer.step d .timer }, [])
  | .decoded => some ({ s with viewer := s.viewer.step d .decoded }, [])

end Portix.Rdp
