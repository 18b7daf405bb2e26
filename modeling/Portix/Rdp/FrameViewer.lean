import Portix.Lib.Raster

/-!
# The frame viewer

The framebuffer, the timer and the decodes of `rdp_frame_viewer.dart`. A viewer that is disposed of is
disconnected as well, so that `mounted` is told by `isDisconnected`.
-/

namespace Portix.Rdp

open Lib

def wrap64 (n : Int) : Int := n.bmod (2 ^ 64)

def clamp (n lower upper : Int) : Int := if n < lower then lower else if upper < n then upper else n

/-- `RdpFrameEvent`. Its numbers have 32 bits, so that of what the viewer works out only the length of the data can
leave 64 bits; that of a list does not. -/
structure RdpFrameEvent where
  data : List UInt8
  data_fits : data.length < 2 ^ 63
  width : Int
  height : Int
  x : Int
  y : Int
deriving DecidableEq

structure Desktop where
  width : Nat
  height : Nat

/-- The pixels that were drawn, and the picture that is decoded from them. -/
structure FrameViewer where
  framebuffer : List UInt8
  image : Option (List UInt8) := none
  debounceActive : Bool := false
  decode : Option (List UInt8 × Nat) := none
  blitGeneration : Nat := 0
  isDisconnected : Bool := false

inductive ViewerEvent where
  | frame (frame : RdpFrameEvent)
  | timer
  | decoded
  | decodeFailed
  | disconnect
deriving DecidableEq

namespace FrameViewer

variable (v : FrameViewer)

def isDecoding : Bool := v.decode.isSome

def blackPixels (n : Nat) : List UInt8 := (List.replicate n [0, 0, 0, 255]).flatten

def initState (d : Desktop) : FrameViewer := { framebuffer := blackPixels (d.width * d.height) }

section

variable (d : Desktop) (x y x0 y0 cw w : Int) (patch : List UInt8)

def blitRows (remaining : Nat) (row : Int) (framebuffer : List UInt8) : List UInt8 :=
  match remaining with
  | 0 => framebuffer
  | remaining + 1 =>
    let srcRowBytes := w * 4
    let dstRowBytes := (d.width : Int) * 4
    let copyBpr := cw * 4
    let srcXOff := (x0 - x) * 4
    let srcRow := row + (y0 - y)
    let srcOff := srcRow * srcRowBytes + srcXOff
    let dstOff := (y0 + row) * dstRowBytes + x0 * 4
    if srcOff + copyBpr > patch.length then framebuffer
    else if dstOff + copyBpr > framebuffer.length then framebuffer
    else blitRows remaining (row + 1)
      (setRange framebuffer dstOff.toNat (dstOff + copyBpr).toNat patch srcOff.toNat)

end

def blitRect (d : Desktop) (x y w h : Int) (patch : List UInt8) (v : FrameViewer) : FrameViewer :=
  if w ≤ 0 ∨ h ≤ 0 then v
  else
    let x0 := clamp x 0 d.width
    let y0 := clamp y 0 d.height
    let x1 := clamp (x + w) 0 d.width
    let y1 := clamp (y + h) 0 d.height
    let cw := x1 - x0
    let ch := y1 - y0
    if cw ≤ 0 ∨ ch ≤ 0 then v
    else { v with framebuffer := blitRows d x y x0 y0 cw w patch ch.toNat 0 v.framebuffer
                  blitGeneration := v.blitGeneration + 1 }

def runDecode : FrameViewer :=
  if v.isDecoding || v.isDisconnected then v
  else { v with decode := some (v.framebuffer, v.blitGeneration) }

def requestDecode : FrameViewer :=
  if v.isDisconnected then v
  else if v.image = none ∧ v.isDecoding = false then runDecode { v with debounceActive := false }
  else if v.debounceActive then v
  else { v with debounceActive := true }

def finishDecode (capturedGen : Nat) : FrameViewer :=
  let v := { v with decode := none }
  if v.isDisconnected = false ∧ capturedGen ≠ v.blitGeneration then requestDecode v else v

def decodeEnds (success : Bool) (v : FrameViewer) : FrameViewer :=
  match v.decode with
  | none => v
  | some (snapshot, capturedGen) =>
    if success && !v.isDisconnected then finishDecode { v with image := some snapshot } capturedGen
    else finishDecode v capturedGen

/-- A frame goes into the framebuffer: the `isCompleteFrame` part of `_onCompleteFrame`. -/
def placeFrame (d : Desktop) (frame : RdpFrameEvent) (v : FrameViewer) : FrameViewer :=
  if frame.x = 0 ∧ frame.y = 0 ∧ frame.width = (d.width : Int) ∧ frame.height = (d.height : Int) then
    { v with framebuffer := frame.data, blitGeneration := v.blitGeneration + 1 }
  else blitRect d frame.x frame.y frame.width frame.height frame.data v

def onCompleteFrame (d : Desktop) (frame : RdpFrameEvent) (v : FrameViewer) : FrameViewer :=
  if v.isDisconnected then v
  else
    let expected := wrap64 (frame.width * frame.height * 4)
    if frame.width ≤ 0 ∨ frame.height ≤ 0 ∨ (frame.data.length : Int) ≠ expected then v
    else requestDecode (placeFrame d frame v)

def handleDisconnect : FrameViewer :=
  if v.isDisconnected then v
  else { v with isDisconnected := true, debounceActive := false, image := none }

def step (d : Desktop) (v : FrameViewer) : ViewerEvent → FrameViewer
  | .frame frame => onCompleteFrame d frame v
  | .timer => if v.debounceActive then runDecode { v with debounceActive := false } else v
  | .decoded => decodeEnds true v
  | .decodeFailed => decodeEnds false v
  | .disconnect => handleDisconnect v

def run (d : Desktop) (events : List ViewerEvent) : FrameViewer := events.foldl (step d) (initState d)

end FrameViewer

namespace RdpFrameEvent

variable (frame : RdpFrameEvent)

/-- A frame of a size that its data has. -/
def WellSized : Prop :=
  0 < frame.width ∧ 0 < frame.height ∧ (frame.data.length : Int) = frame.width * frame.height * 4

instance (frame : RdpFrameEvent) : Decidable frame.WellSized := inferInstanceAs (Decidable (_ ∧ _ ∧ _))

/-- The pixel lies in the frame's rectangle. -/
def Covers (px py : Nat) : Prop :=
  frame.x ≤ px ∧ (px : Int) < frame.x + frame.width ∧ frame.y ≤ py ∧ (py : Int) < frame.y + frame.height

instance (frame : RdpFrameEvent) (px py : Nat) : Decidable (frame.Covers px py) :=
  inferInstanceAs (Decidable (_ ∧ _ ∧ _ ∧ _))

def draw (picture : Nat → Nat → List UInt8) (frame : RdpFrameEvent) : Nat → Nat → List UInt8 := fun px py =>
  if frame.Covers px py then
    cellAt 4 frame.width.toNat frame.data ((px : Int) - frame.x).toNat ((py : Int) - frame.y).toNat
  else picture px py

/-- The length of the data is not taken for that of a frame that is 2 ^ 64 bytes or more larger. -/
def Unwrapped : Prop :=
  (frame.data.length : Int) = wrap64 (frame.width * frame.height * 4) →
    (frame.data.length : Int) = frame.width * frame.height * 4

instance (frame : RdpFrameEvent) : Decidable frame.Unwrapped := inferInstanceAs (Decidable (_ → _))

end RdpFrameEvent

/-- The frames that are accepted: those of the right size, up to the disconnect. -/
def acceptedFrames : List ViewerEvent → List RdpFrameEvent
  | [] => []
  | .disconnect :: _ => []
  | .frame frame :: rest => if frame.WellSized then frame :: acceptedFrames rest else acceptedFrames rest
  | _ :: rest => acceptedFrames rest

/-- The picture that frames make, one after the other, on a black desktop. -/
def pictureOf (frames : List RdpFrameEvent) : Nat → Nat → List UInt8 :=
  frames.foldl RdpFrameEvent.draw fun _ _ => [0, 0, 0, 255]

/-- The framebuffer is the picture of the frames that were accepted, and it is displayed wherever nothing is still to
be decoded. -/
structure ShowsFrames (d : Desktop) (events : List ViewerEvent) (v : FrameViewer) : Prop where
  length : v.framebuffer.length = d.width * d.height * 4
  pixels : ∀ px < d.width, ∀ py < d.height,
    cellAt 4 d.width v.framebuffer px py = pictureOf (acceptedFrames events) px py
  displayed : acceptedFrames events ≠ [] → v.debounceActive = false → v.decode = none →
    ViewerEvent.disconnect ∉ events → v.image = some v.framebuffer

end Portix.Rdp
