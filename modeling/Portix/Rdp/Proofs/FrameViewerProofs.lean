import Mathlib.Data.List.Induction
import Portix.Rdp.FrameViewer

/-!
# Soundness theorems for the frame viewer
-/

namespace Portix.Rdp

open Lib

namespace FrameViewer

variable {d : Desktop}

/-- Rows that fit both buffers are all copied: the cells between `y0 + row` and the last of them are replaced, in the
columns from `x0` on. -/
theorem blitRows_spec {patch framebuffer : List UInt8} {x y : Int} {x0 y0 count srcX srcY srcWidth remaining row : Nat}
    (hx : (x0 : Int) - x = srcX) (hy : (y0 : Int) - y = srcY)
    (hfits : x0 + count ≤ d.width) (hrows : y0 + row + remaining ≤ d.height)
    (hlen : framebuffer.length = d.width * d.height * 4) (hsrcFits : srcX + count ≤ srcWidth)
    (hpatch : (srcY + row + remaining) * srcWidth * 4 ≤ patch.length) :
    (blitRows d x y x0 y0 count srcWidth patch remaining row framebuffer).length = framebuffer.length ∧
    ∀ px < d.width, ∀ py,
      cellAt 4 d.width (blitRows d x y x0 y0 count srcWidth patch remaining row framebuffer) px py =
        if y0 + row ≤ py ∧ py < y0 + row + remaining ∧ x0 ≤ px ∧ px < x0 + count then
          cellAt 4 srcWidth patch (srcX + (px - x0)) (srcY + (py - y0))
        else cellAt 4 d.width framebuffer px py := by
  induction remaining generalizing row framebuffer with
  | zero =>
    refine ⟨rfl, fun px _ py => ?_⟩
    rw [if_neg (by omega)]
    rfl
  | succ remaining ih =>
    -- The offsets, as cells of the two buffers.
    have hsrc : ((row : Int) + (y0 - y)) * (srcWidth * 4) + ((x0 : Int) - x) * 4
        = ((((srcY + row) * srcWidth + srcX) * 4 : Nat) : Int) := by
      rw [hx, hy]
      push_cast
      ring
    have hdst : ((y0 : Int) + row) * ((d.width : Int) * 4) + x0 * 4
        = ((((y0 + row) * d.width + x0) * 4 : Nat) : Int) := by
      push_cast
      ring
    have hsrcEnd : ((((srcY + row) * srcWidth + srcX) * 4 : Nat) : Int) + (count : Int) * 4
        = ((((srcY + row) * srcWidth + (srcX + count)) * 4 : Nat) : Int) := by
      push_cast
      ring
    have hdstEnd : ((((y0 + row) * d.width + x0) * 4 : Nat) : Int) + (count : Int) * 4
        = ((((y0 + row) * d.width + (x0 + count)) * 4 : Nat) : Int) := by
      push_cast
      ring
    have hsrcIn : ((srcY + row) * srcWidth + (srcX + count)) * 4 ≤ patch.length := by
      refine le_trans (Nat.mul_le_mul_right 4 ?_) hpatch
      calc (srcY + row) * srcWidth + (srcX + count) ≤ (srcY + row) * srcWidth + srcWidth := by omega
        _ = (srcY + row + 1) * srcWidth := by ring
        _ ≤ (srcY + row + (remaining + 1)) * srcWidth := Nat.mul_le_mul_right _ (by omega)
    have hdstIn : ((y0 + row) * d.width + (x0 + count)) * 4 ≤ framebuffer.length := by
      rw [hlen]
      refine Nat.mul_le_mul_right 4 ?_
      calc (y0 + row) * d.width + (x0 + count) ≤ (y0 + row) * d.width + d.width := by omega
        _ = d.width * (y0 + row + 1) := by ring
        _ ≤ d.width * d.height := Nat.mul_le_mul_left _ (by omega)
    have hcell := fun px (hpx : px < d.width) py => cellAt_setRange hfits hdstIn hsrcIn hpx py
    have hsize : (setRange framebuffer (((y0 + row) * d.width + x0) * 4)
        (((y0 + row) * d.width + (x0 + count)) * 4) patch (((srcY + row) * srcWidth + srcX) * 4)).length
        = framebuffer.length := by
      refine length_setRange (by omega) hdstIn ?_
      have hcount : ((y0 + row) * d.width + (x0 + count)) * 4 = ((y0 + row) * d.width + x0) * 4 + count * 4 := by ring
      have hcount' : ((srcY + row) * srcWidth + (srcX + count)) * 4
          = ((srcY + row) * srcWidth + srcX) * 4 + count * 4 := by ring
      omega
    rw [blitRows, hsrc, hdst, hsrcEnd, hdstEnd, if_neg (by omega), if_neg (by omega), Int.toNat_natCast,
      Int.toNat_natCast,
      Int.toNat_natCast]
    generalize setRange framebuffer (((y0 + row) * d.width + x0) * 4)
      (((y0 + row) * d.width + (x0 + count)) * 4) patch (((srcY + row) * srcWidth + srcX) * 4) = next at hcell hsize ⊢
    have hrow : ((row : Int) + 1) = ((row + 1 : Nat) : Int) := by push_cast; rfl
    rw [hrow]
    have hrows' : y0 + (row + 1) + remaining ≤ d.height := by omega
    have hpatch' : (srcY + (row + 1) + remaining) * srcWidth * 4 ≤ patch.length := by
      rw [show srcY + (row + 1) + remaining = srcY + row + (remaining + 1) by omega]
      exact hpatch
    obtain ⟨hnext, hcells⟩ := ih hrows' (hsize.trans hlen) hpatch'
    refine ⟨hnext.trans hsize, fun px hpx py => ?_⟩
    rw [hcells px hpx py, hcell px hpx py]
    by_cases hthis : py = y0 + row ∧ x0 ≤ px ∧ px < x0 + count
    · rw [if_neg (by omega), if_pos hthis, if_pos (by omega)]
      congr 1
      omega
    · rw [if_neg hthis]
      refine if_congr ?_ rfl rfl
      omega

theorem clamp_eq (n : Int) (upper : Nat) : clamp n 0 upper = max 0 (min n upper) := by
  rw [clamp]
  split
  · omega
  · split
    · omega
    · omega

variable {frame : RdpFrameEvent}

theorem blitRect_spec (hsized : frame.WellSized) {v : FrameViewer}
    (hlen : v.framebuffer.length = d.width * d.height * 4) {picture : Nat → Nat → List UInt8}
    (hpixels : ∀ px < d.width, ∀ py < d.height, cellAt 4 d.width v.framebuffer px py = picture px py) :
    (blitRect d frame.x frame.y frame.width frame.height frame.data v).framebuffer.length
        = d.width * d.height * 4 ∧
      ∀ px < d.width, ∀ py < d.height,
        cellAt 4 d.width (blitRect d frame.x frame.y frame.width frame.height frame.data v).framebuffer px py
          = frame.draw picture px py := by
  obtain ⟨hwidth, hheight, hdata⟩ := hsized
  obtain ⟨w, hw⟩ := Int.eq_ofNat_of_zero_le (Int.le_of_lt hwidth)
  obtain ⟨h, hh⟩ := Int.eq_ofNat_of_zero_le (Int.le_of_lt hheight)
  have hx0 := clamp_eq frame.x d.width
  have hx1 := clamp_eq (frame.x + frame.width) d.width
  have hy0 := clamp_eq frame.y d.height
  have hy1 := clamp_eq (frame.y + frame.height) d.height
  rw [blitRect, if_neg (by omega)]
  dsimp only
  by_cases hempty : clamp (frame.x + frame.width) 0 d.width - clamp frame.x 0 d.width ≤ 0 ∨
      clamp (frame.y + frame.height) 0 d.height - clamp frame.y 0 d.height ≤ 0
  · -- Nothing of the rectangle lies inside the desktop.
    rw [if_pos hempty]
    refine ⟨hlen, fun px hpx py hpy => ?_⟩
    have hout : ¬frame.Covers px py := by
      rw [RdpFrameEvent.Covers]
      omega
    rw [RdpFrameEvent.draw, if_neg hout, hpixels px hpx py hpy]
  · rw [if_neg hempty]
    generalize clamp frame.x 0 d.width = cx0 at hx0 hempty ⊢
    generalize clamp (frame.x + frame.width) 0 d.width = cx1 at hx1 hempty ⊢
    generalize clamp frame.y 0 d.height = cy0 at hy0 hempty ⊢
    generalize clamp (frame.y + frame.height) 0 d.height = cy1 at hy1 hempty ⊢
    obtain ⟨x0, rfl⟩ := Int.eq_ofNat_of_zero_le (a := cx0) (by omega)
    obtain ⟨y0, rfl⟩ := Int.eq_ofNat_of_zero_le (a := cy0) (by omega)
    obtain ⟨count, hcount⟩ := Int.eq_ofNat_of_zero_le (a := cx1 - x0) (by omega)
    obtain ⟨rows, hrows⟩ := Int.eq_ofNat_of_zero_le (a := cy1 - y0) (by omega)
    obtain ⟨srcX, hsrcX⟩ := Int.eq_ofNat_of_zero_le (a := (x0 : Int) - frame.x) (by omega)
    obtain ⟨srcY, hsrcY⟩ := Int.eq_ofNat_of_zero_le (a := (y0 : Int) - frame.y) (by omega)
    have hpatch : (srcY + 0 + rows) * w * 4 ≤ frame.data.length := by
      have hbytes : frame.data.length = w * h * 4 := by
        rw [hw, hh] at hdata
        exact_mod_cast hdata
      rw [hbytes, Nat.mul_comm w h]
      exact Nat.mul_le_mul_right 4 (Nat.mul_le_mul_right w (by omega))
    have hfits : x0 + count ≤ d.width := by omega
    have hfits' : y0 + 0 + rows ≤ d.height := by omega
    have hsrcFits : srcX + count ≤ w := by omega
    obtain ⟨hsize, hcells⟩ := blitRows_spec hsrcX hsrcY hfits hfits' hlen hsrcFits hpatch
    rw [hcount, hrows, hw, Int.toNat_natCast]
    refine ⟨hsize.trans hlen, fun px hpx py hpy => ?_⟩
    refine (hcells px hpx py).trans ?_
    rw [RdpFrameEvent.draw, hpixels px hpx py hpy, hw, Int.toNat_natCast]
    have hcovers : y0 + 0 ≤ py ∧ py < y0 + 0 + rows ∧ x0 ≤ px ∧ px < x0 + count ↔ frame.Covers px py := by
      rw [RdpFrameEvent.Covers]
      omega
    refine if_ctx_congr hcovers (fun hin => ?_) fun _ => rfl
    rw [RdpFrameEvent.Covers] at hin
    congr 1
    · omega
    · omega

variable (v : FrameViewer)

/-- The decode under way has the framebuffer as it was in its generation. -/
def Captures : Prop :=
  ∀ snapshot capturedGen, v.decode = some (snapshot, capturedGen) →
    capturedGen ≤ v.blitGeneration ∧ (capturedGen = v.blitGeneration → snapshot = v.framebuffer)

/-- Where nothing is still to be decoded, the framebuffer is displayed. -/
def Displays : Prop :=
  v.debounceActive = false → v.decode = none → v.isDisconnected = false → v.image = some v.framebuffer

/-- The framebuffer and the connection are those of `v`. -/
def Keeps (v v' : FrameViewer) : Prop := v'.framebuffer = v.framebuffer ∧ v'.isDisconnected = v.isDisconnected

theorem runDecode_keeps : Keeps v (runDecode v) := by
  rw [runDecode]
  split
  · exact ⟨rfl, rfl⟩
  · exact ⟨rfl, rfl⟩

theorem requestDecode_keeps : Keeps v (requestDecode v) := by
  rw [requestDecode]
  split
  · exact ⟨rfl, rfl⟩
  · split
    · exact runDecode_keeps _
    · split
      · exact ⟨rfl, rfl⟩
      · exact ⟨rfl, rfl⟩

theorem finishDecode_keeps (capturedGen : Nat) : Keeps v (finishDecode v capturedGen) := by
  rw [finishDecode]
  split
  · exact requestDecode_keeps _
  · exact ⟨rfl, rfl⟩

theorem decodeEnds_keeps (success : Bool) (v : FrameViewer) : Keeps v (decodeEnds success v) := by
  rw [decodeEnds]
  split
  · exact ⟨rfl, rfl⟩
  · split
    · exact finishDecode_keeps _ _
    · exact finishDecode_keeps _ _

theorem runDecode_displays {v : FrameViewer} (h : Captures v) : Captures (runDecode v) ∧ Displays (runDecode v) := by
  rw [runDecode]
  split
  · rename_i hbusy
    refine ⟨h, fun _ hdecode hconnected => ?_⟩
    rw [isDecoding, hdecode, hconnected] at hbusy
    cases hbusy
  · refine ⟨fun snapshot capturedGen heq => ?_, fun _ hdecode => ?_⟩
    · cases Option.some.inj heq
      exact ⟨Nat.le_refl _, fun _ => rfl⟩
    · cases hdecode

theorem requestDecode_displays {v : FrameViewer} (h : Captures v) :
    Captures (requestDecode v) ∧ Displays (requestDecode v) := by
  rw [requestDecode]
  split
  · rename_i hdisconnected
    refine ⟨h, fun _ _ hconnected => ?_⟩
    rw [hconnected] at hdisconnected
    cases hdisconnected
  · split
    · exact runDecode_displays h
    · split
      · rename_i hactive
        refine ⟨h, fun hidle => ?_⟩
        rw [hidle] at hactive
        cases hactive
      · refine ⟨h, fun hidle => ?_⟩
        cases hidle

/-- A decode that succeeds shows its snapshot, and asks for another where the framebuffer has changed since. -/
theorem decodeEnds_displays {v : FrameViewer} {seen : Prop} (hcaptures : Captures v)
    (hdisplays : seen → Displays v) : Captures (decodeEnds true v) ∧ (seen → Displays (decodeEnds true v)) := by
  cases hdecode : v.decode with
  | none =>
    simp only [decodeEnds, hdecode]
    exact ⟨hcaptures, hdisplays⟩
  | some pending =>
    obtain ⟨snapshot, capturedGen⟩ := pending
    obtain ⟨-, hsame⟩ := hcaptures snapshot capturedGen hdecode
    have hnone : ∀ v' : FrameViewer, v'.decode = none → Captures v' := by
      intro v' hv' _ _ heq
      rw [hv'] at heq
      cases heq
    simp only [decodeEnds, hdecode, finishDecode]
    by_cases hconnected : v.isDisconnected = true
    · rw [if_neg (by simp [hconnected]), if_neg (by simp [hconnected])]
      exact ⟨hnone _ rfl, fun _ _ _ hfalse => absurd (hconnected.symm.trans hfalse) (by decide)⟩
    · rw [if_pos (by simp [hconnected])]
      by_cases hgen : capturedGen = v.blitGeneration
      · rw [if_neg (fun hcond => hcond.2 hgen)]
        exact ⟨hnone _ rfl, fun _ _ _ _ => congrArg some (hsame hgen)⟩
      · rw [if_pos ⟨Bool.eq_false_of_not_eq_true hconnected, hgen⟩]
        obtain ⟨hcaptures', hdisplays'⟩ := requestDecode_displays
          (hnone { v with decode := none, image := some snapshot } rfl)
        exact ⟨hcaptures', fun _ => hdisplays'⟩

/-- What holds after some events. -/
structure Inv (d : Desktop) (events : List ViewerEvent) (v : FrameViewer) : Prop where
  length : v.framebuffer.length = d.width * d.height * 4
  pixels : ∀ px < d.width, ∀ py < d.height,
    cellAt 4 d.width v.framebuffer px py = pictureOf (acceptedFrames events) px py
  captures : Captures v
  displays : acceptedFrames events ≠ [] → Displays v
  connection : v.isDisconnected = true ↔ ViewerEvent.disconnect ∈ events

theorem acceptedFrames_concat (events : List ViewerEvent) (e : ViewerEvent) : acceptedFrames (events ++ [e]) =
      acceptedFrames events ++ if ViewerEvent.disconnect ∈ events then [] else acceptedFrames [e] := by
  induction events with
  | nil => rfl
  | cons first rest ih =>
    cases first with
    | disconnect => simp [acceptedFrames]
    | frame frame =>
      by_cases hsized : frame.WellSized
      · simp [acceptedFrames, hsized, ih]
      · simp [acceptedFrames, hsized, ih]
    | timer => simp [acceptedFrames, ih]
    | decoded => simp [acceptedFrames, ih]
    | decodeFailed => simp [acceptedFrames, ih]

variable {events : List ViewerEvent}

theorem Inv.keeps {v v' : FrameViewer} {e : ViewerEvent} (h : Inv d events v)
    (hframes : acceptedFrames (events ++ [e]) = acceptedFrames events) (hother : e ≠ .disconnect)
    (hkeeps : Keeps v v') (hcaptures : Captures v') (hdisplays : acceptedFrames events ≠ [] → Displays v') :
    Inv d (events ++ [e]) v' := by
  obtain ⟨hbuffer, hconnected⟩ := hkeeps
  refine ⟨?_, ?_, hcaptures, ?_, ?_⟩
  · rw [hbuffer, h.length]
  · rw [hframes, hbuffer]
    exact h.pixels
  · rw [hframes]
    exact hdisplays
  · rw [hconnected, h.connection, List.mem_append, List.mem_singleton]
    exact ⟨.inl, fun hmem => hmem.resolve_right fun heq => hother heq.symm⟩

theorem rejected_iff (h : frame.Unwrapped) :
    frame.width ≤ 0 ∨ frame.height ≤ 0 ∨ (frame.data.length : Int) ≠ wrap64 (frame.width * frame.height * 4) ↔
      ¬frame.WellSized := by
  have hlen : (frame.data.length : Int) = wrap64 (frame.width * frame.height * 4) ↔
      (frame.data.length : Int) = frame.width * frame.height * 4 := by
    refine ⟨h, fun heq => ?_⟩
    have hfits := frame.data_fits
    rw [← heq, wrap64, Int.bmod_eq_of_le (by omega) (by omega)]
  rw [RdpFrameEvent.WellSized, Ne, hlen]
  omega

theorem blitRect_captures {x y w h : Int} {patch : List UInt8} {v : FrameViewer} (hcaptures : Captures v) :
    Captures (blitRect d x y w h patch v) ∧ (blitRect d x y w h patch v).isDisconnected = v.isDisconnected := by
  rw [blitRect]
  split
  · exact ⟨hcaptures, rfl⟩
  · dsimp only
    split
    · exact ⟨hcaptures, rfl⟩
    · refine ⟨fun snapshot capturedGen hdecode => ?_, rfl⟩
      have hle := (hcaptures snapshot capturedGen hdecode).1
      exact ⟨Nat.le_succ_of_le hle, fun heq => absurd heq (by dsimp only; omega)⟩

theorem complete_draw (hx : frame.x = 0) (hy : frame.y = 0)
    (hwidth : frame.width = d.width) (hheight : frame.height = d.height) (picture : Nat → Nat → List UInt8)
    {px py : Nat} (hpx : px < d.width) (hpy : py < d.height) :
    frame.draw picture px py = cellAt 4 d.width frame.data px py := by
  have hin : frame.Covers px py := by
    rw [RdpFrameEvent.Covers, hx, hy, hwidth, hheight]
    omega
  rw [RdpFrameEvent.draw, if_pos hin, hx, hy, hwidth, Int.sub_zero, Int.sub_zero, Int.toNat_natCast,
    Int.toNat_natCast, Int.toNat_natCast]

theorem placeFrame_spec {v : FrameViewer} (hsized : frame.WellSized)
    (hlen : v.framebuffer.length = d.width * d.height * 4) {picture : Nat → Nat → List UInt8}
    (hpixels : ∀ px < d.width, ∀ py < d.height, cellAt 4 d.width v.framebuffer px py = picture px py)
    (hcaptures : Captures v) :
    (placeFrame d frame v).framebuffer.length = d.width * d.height * 4 ∧
      (∀ px < d.width, ∀ py < d.height,
        cellAt 4 d.width (placeFrame d frame v).framebuffer px py = frame.draw picture px py) ∧
      Captures (placeFrame d frame v) ∧ (placeFrame d frame v).isDisconnected = v.isDisconnected := by
  rw [placeFrame]
  split
  · rename_i hcomplete
    obtain ⟨hx, hy, hwidth, hheight⟩ := hcomplete
    refine ⟨?_, fun px hpx py hpy => ?_, fun snapshot capturedGen hdecode => ?_, rfl⟩
    · have hdata := hsized.2.2
      rw [hwidth, hheight] at hdata
      exact_mod_cast hdata
    · exact (complete_draw hx hy hwidth hheight _ hpx hpy).symm
    · have hle := (hcaptures snapshot capturedGen hdecode).1
      exact ⟨Nat.le_succ_of_le hle, fun heq => absurd heq (by dsimp only; omega)⟩
  · obtain ⟨hlen', hpixels'⟩ := blitRect_spec hsized hlen hpixels
    obtain ⟨hcaptures', hsame⟩ := @blitRect_captures d frame.x frame.y frame.width frame.height frame.data v hcaptures
    exact ⟨hlen', hpixels', hcaptures', hsame⟩

theorem frame_inv {v : FrameViewer} (h : Inv d events v)
    (hunwrapped : frame.Unwrapped) : Inv d (events ++ [.frame frame]) (onCompleteFrame d frame v) := by
  have hframes := acceptedFrames_concat events (.frame frame)
  rw [onCompleteFrame]
  by_cases hconnected : v.isDisconnected = true
  · rw [if_pos hconnected]
    rw [if_pos (h.connection.mp hconnected), List.append_nil] at hframes
    exact h.keeps hframes (by simp) ⟨rfl, rfl⟩ h.captures h.displays
  · rw [if_neg hconnected]
    rw [if_neg (fun hmem => hconnected (h.connection.mpr hmem)), acceptedFrames] at hframes
    by_cases hsized : frame.WellSized
    · rw [if_neg (fun hrej => (rejected_iff hunwrapped).mp hrej hsized)]
      rw [if_pos hsized, acceptedFrames] at hframes
      have hpicture : pictureOf (acceptedFrames (events ++ [.frame frame]))
          = frame.draw (pictureOf (acceptedFrames events)) := by
        rw [hframes, pictureOf, List.foldl_append]
        rfl
      obtain ⟨hlen, hpixels, hcaptures, hsame⟩ := placeFrame_spec hsized h.length h.pixels h.captures
      obtain ⟨hbuffer, hdisconnected⟩ := requestDecode_keeps (placeFrame d frame v)
      obtain ⟨hcaptures', hdisplays⟩ := requestDecode_displays hcaptures
      refine ⟨?_, ?_, hcaptures', fun _ => hdisplays, ?_⟩
      · rw [hbuffer, hlen]
      · rw [hpicture, hbuffer]
        exact hpixels
      · rw [hdisconnected, hsame, h.connection, List.mem_append, List.mem_singleton]
        simp
    · rw [if_pos ((rejected_iff hunwrapped).mpr hsized)]
      rw [if_neg hsized, acceptedFrames, List.append_nil] at hframes
      exact h.keeps hframes (by simp) ⟨rfl, rfl⟩ h.captures h.displays

theorem step_inv {v : FrameViewer} {e : ViewerEvent} (h : Inv d events v)
    (hunwrapped : ∀ frame, e = .frame frame → frame.Unwrapped) (hsuccess : e ≠ .decodeFailed) :
    Inv d (events ++ [e]) (step d v e) := by
  have hframes : acceptedFrames [e] = [] → acceptedFrames (events ++ [e]) = acceptedFrames events := by
    intro hnone
    rw [acceptedFrames_concat, hnone, ite_self, List.append_nil]
  cases e with
  | frame frame => exact frame_inv h (hunwrapped frame rfl)
  | timer =>
    replace hframes := hframes rfl
    rw [step]
    split
    · have hcaptures : Captures { v with debounceActive := false } := h.captures
      obtain ⟨hcaptures', hdisplays⟩ := runDecode_displays hcaptures
      exact h.keeps hframes (by simp) (runDecode_keeps { v with debounceActive := false }) hcaptures' fun _ => hdisplays
    · exact h.keeps hframes (by simp) ⟨rfl, rfl⟩ h.captures h.displays
  | decoded =>
    obtain ⟨hcaptures, hdisplays⟩ := decodeEnds_displays h.captures h.displays
    exact h.keeps (hframes rfl) (by simp) (decodeEnds_keeps true v) hcaptures hdisplays
  | decodeFailed => exact absurd rfl hsuccess
  | disconnect =>
    replace hframes := hframes rfl
    rw [step, handleDisconnect]
    split
    · rename_i hconnected
      refine ⟨h.length, hframes ▸ h.pixels, h.captures, hframes ▸ h.displays, ?_⟩
      simp [hconnected]
    · refine ⟨h.length, hframes ▸ h.pixels, h.captures, fun _ _ _ hfalse => ?_, ?_⟩
      · cases hfalse
      · simp

theorem initState_inv : Inv d [] (initState d) := by
  refine ⟨?_, fun px hpx py hpy => ?_, fun _ _ h => ?_, fun h => absurd rfl h, ?_⟩
  · rw [initState, blackPixels, List.length_flatten, List.map_replicate, List.sum_replicate_nat]
    rfl
  · have hcell : py * d.width + px < d.width * d.height := by
      calc py * d.width + px < py * d.width + d.width := by omega
        _ = d.width * (py + 1) := by ring
        _ ≤ d.width * d.height := Nat.mul_le_mul_left _ hpy
    exact @cellAt_replicate UInt8 _ _ _ [0, 0, 0, 255] _ hcell
  · cases h
  · exact ⟨fun h => absurd h Bool.false_ne_true, fun h => absurd h List.not_mem_nil⟩

theorem run_inv (hunwrapped : ∀ frame, ViewerEvent.frame frame ∈ events → frame.Unwrapped)
    (hsuccess : ViewerEvent.decodeFailed ∉ events) : Inv d events (run d events) := by
  induction events using List.reverseRecOn with
  | nil => exact initState_inv
  | append_singleton events e ih =>
    rw [run, List.foldl_append]
    refine step_inv (ih (fun frame hmem => hunwrapped frame (List.mem_append_left _ hmem)) fun hmem => hsuccess
      (List.mem_append_left _ hmem)) (fun frame heq => hunwrapped frame (by simp [heq])) fun heq => hsuccess
      (by simp [heq])

end FrameViewer

/-- No frame is lost on the screen: after any run of events in which no decode fails, the framebuffer is the picture
of the frames accepted so far, and it is displayed wherever nothing is still to be decoded, as long as no frame has a
length that is only its own modulo 2 ^ 64. -/
theorem showsFrames (d : Desktop) (events : List ViewerEvent)
    (hunwrapped : ∀ frame, ViewerEvent.frame frame ∈ events → frame.Unwrapped)
    (hsuccess : ViewerEvent.decodeFailed ∉ events) : ShowsFrames d events (FrameViewer.run d events) := by
  have h := FrameViewer.run_inv (d := d) hunwrapped hsuccess
  refine ⟨h.length, h.pixels, fun hseen hidle hdecode hconnected => h.displays hseen hidle hdecode ?_⟩
  rw [← Bool.not_eq_true, h.connection]
  exact hconnected

/-- Nothing of a desktop that one frame covers from its second column on is lost. -/
theorem showsFrames_one_patch :
    ViewerEvent.decodeFailed ∉ [ViewerEvent.frame ⟨List.replicate 8 7, by decide, 2, 1, 1, 0⟩, .decoded] ∧
      ShowsFrames ⟨2, 1⟩ [.frame ⟨List.replicate 8 7, by decide, 2, 1, 1, 0⟩, .decoded]
        (FrameViewer.run ⟨2, 1⟩ [.frame ⟨List.replicate 8 7, by decide, 2, 1, 1, 0⟩, .decoded]) := by
  refine ⟨by decide, showsFrames _ _ (fun frame hmem => ?_) (by decide)⟩
  have hframe : frame = ⟨List.replicate 8 7, by decide, 2, 1, 1, 0⟩ := by simpa using hmem
  subst hframe
  decide

/-- Four bytes that are taken for a frame of 2147418113 by 2147549185 pixels, as 2 ^ 64 + 4 bytes are: they are
drawn. -/
theorem four_bytes_drawn :
    ¬ShowsFrames ⟨1, 1⟩ [.frame ⟨[1, 2, 3, 4], by decide, 2147418113, 2147549185, 0, 0⟩]
      (FrameViewer.run ⟨1, 1⟩ [.frame ⟨[1, 2, 3, 4], by decide, 2147418113, 2147549185, 0, 0⟩]) := by
  intro h
  have hpixel := h.pixels 0 (by decide) 0 (by decide)
  revert hpixel
  decide

end Portix.Rdp
