import Portix.Lib.Machine
import Portix.Rdp.Proofs.FrameViewerProofs
import Portix.Rdp.Screen

/-!
# Proofs: the screen of a session

The frames that were accepted and those under way are all of the same place and size, and the last of them is the
image, unless a newer one is due: by induction on the run, with the invariant of the viewer.
-/

namespace Portix.Rdp

open Lib

namespace DecodedImage

variable {image : DecodedImage}

theorem getElem?_copyRows (hwhole : image.Whole) {data : List UInt8} {rows row i : Nat}
    (hrows : rows ≤ image.height.toNat) (hdata : data.length = image.rowBytes * image.height.toNat)
    (hrow : row < rows) (hi : i < image.rowBytes) :
    (image.copyRows data rows)[row * image.rowBytes + i]? = image.data[row * image.stride + i]? := by
  induction rows with
  | zero => omega
  | succ rows ih =>
    have hsize := length_copyRows hwhole (Nat.le_of_succ_le hrows) hdata
    obtain ⟨-, -, hstride, hlength⟩ := hwhole
    have hto := Nat.mul_le_mul_right image.rowBytes hrows
    have hfrom := Nat.mul_le_mul_right image.stride hrows
    rw [Nat.add_mul, Nat.one_mul] at hto hfrom
    rw [Nat.mul_comm] at hdata hlength
    rw [copyRows, getElem?_setRange (by omega) (by omega) (by omega)]
    by_cases hlast : row = rows
    · subst hlast
      rw [if_pos (by omega)]
      congr 1
      omega
    · have hbefore := Nat.mul_le_mul_right image.rowBytes (show row + 1 ≤ rows by omega)
      rw [Nat.add_mul, Nat.one_mul] at hbefore
      rw [if_neg (by omega), ih (by omega) (by omega)]

theorem cellAt_frameData (hwhole : image.Whole) {px py : Nat} (hpx : px < image.width.toNat)
    (hpy : py < image.height.toNat) : cellAt 4 image.width.toNat image.frameData px py = image.pixel px py := by
  have hplace : (py * image.width.toNat + px) * 4 = py * image.rowBytes + px * 4 := by
    rw [rowBytes]
    ring
  have hfits : py * image.stride + image.stride ≤ image.data.length := by
    have hrow := Nat.mul_le_mul_right image.stride (show py + 1 ≤ image.height.toNat from hpy)
    rw [Nat.add_mul, Nat.one_mul, Nat.mul_comm image.height.toNat] at hrow
    exact hrow.trans hwhole.2.2.2
  have hrow : px * 4 + 4 ≤ image.rowBytes := by
    rw [rowBytes]
    omega
  have hstride := hwhole.2.2.1
  have hsample : ∀ i < 4, image.frameData[(py * image.width.toNat + px) * 4 + i]? =
      if i = 3 then some 0xFF else image.data[py * image.stride + (px * 4 + i)]? := by
    intro i hi
    rw [frameData, solid, List.getElem?_mapIdx, hplace, Nat.add_assoc,
      getElem?_copyRows hwhole (Nat.le_refl _) List.length_replicate hpy (by omega),
      List.getElem?_eq_getElem (show py * image.stride + (px * 4 + i) < _ by omega), Option.map_some]
    have hmod : (py * image.rowBytes + (px * 4 + i)) % 4 = i := by
      rw [rowBytes, ← Nat.mul_assoc]
      omega
    rw [hmod]
    split
    · rfl
    · rfl
  have hlength : ((image.data.drop (py * image.stride + px * 4)).take 3).length = 3 := by
    rw [List.length_take, List.length_drop]
    omega
  refine List.ext_getElem? fun i => ?_
  by_cases hi : i < 4
  · rw [getElem?_cellAt hi, hsample i hi, pixel]
    by_cases hthird : i = 3
    · subst hthird
      rw [if_pos rfl, List.getElem?_append_right (by omega), hlength]
      rfl
    · rw [if_neg hthird, List.getElem?_append_left (by omega), List.getElem?_take_of_lt (by omega),
        List.getElem?_drop, Nat.add_assoc]
  · rw [cellAt, pixel, List.getElem?_take_eq_none (by omega), List.getElem?_eq_none]
    rw [List.length_append, hlength]
    exact Nat.le_of_not_lt hi

end DecodedImage

/-- A frame of the whole remote desktop. -/
structure RdpFrameEvent.Full (width height : UInt16) (frame : RdpFrameEvent) : Prop where
  x : frame.x = 0
  y : frame.y = 0
  width : frame.width = width.toNat
  height : frame.height = height.toNat
  sized : frame.WellSized

section

variable {width height : UInt16} {image : DecodedImage} {frame : RdpFrameEvent} {frames : List RdpFrameEvent}
  {px py : Nat}

theorem full_of_fullFrame (hframe : image.fullFrame = some frame) : frame.Full image.width image.height := by
  unfold DecodedImage.fullFrame at hframe
  split at hframe
  · rename_i hwhole
    cases hframe
    have hwidth : 0 < image.width.toNat := hwhole.1
    have hheight : 0 < image.height.toNat := hwhole.2.1
    refine ⟨rfl, rfl, rfl, rfl, Int.natCast_pos.mpr hwidth, Int.natCast_pos.mpr hheight, ?_⟩
    show (image.frameData.length : Int) = _
    rw [DecodedImage.length_frameData hwhole, DecodedImage.rowBytes]
    push_cast
    ring
  · cases hframe

theorem RdpFrameEvent.Full.covers_iff (h : frame.Full width height) :
    frame.Covers px py ↔ px < width.toNat ∧ py < height.toNat := by
  rw [RdpFrameEvent.Covers, h.x, h.y, h.width, h.height]
  omega

theorem pictureOf_outside (hfull : ∀ frame ∈ frames, frame.Full width height)
    (hout : ¬(px < width.toNat ∧ py < height.toNat)) : pictureOf frames px py = [0, 0, 0, 255] := by
  induction frames using List.reverseRecOn with
  | nil => rfl
  | append_singleton frames frame ih =>
    have hlast := hfull frame (by simp)
    rw [pictureOf, List.foldl_append, List.foldl_cons, List.foldl_nil, RdpFrameEvent.draw,
      if_neg (fun hcovers => hout (hlast.covers_iff.mp hcovers))]
    exact ih fun frame hmem => hfull frame (List.mem_append_left _ hmem)

/-- Of frames of the same place and size only the last one is seen. -/
theorem pictureOf_full (hfull : ∀ frame ∈ frames, frame.Full image.width image.height)
    (hlast : ∃ frame, frames.getLast? = some frame ∧ image.fullFrame = some frame) :
    pictureOf frames px py =
      if px < image.width.toNat ∧ py < image.height.toNat then image.pixel px py else [0, 0, 0, 255] := by
  split
  · rename_i hin
    obtain ⟨frame, hframe, hdrawn⟩ := hlast
    obtain ⟨front, rfl⟩ := List.getLast?_eq_some_iff.mp hframe
    rw [pictureOf, List.foldl_append, List.foldl_cons, List.foldl_nil, RdpFrameEvent.draw,
      if_pos ((full_of_fullFrame hdrawn).covers_iff.mpr hin)]
    unfold DecodedImage.fullFrame at hdrawn
    split at hdrawn
    · rename_i hwhole
      cases hdrawn
      exact DecodedImage.cellAt_frameData hwhole hin.1 hin.2
    · cases hdrawn
  · exact pictureOf_outside hfull ‹_›

end

namespace Screen

/-- The library updates a region of the image, and says so; and a subscriber does not lag so far behind that it
misses the newest frame. -/
def Regular (s : Screen) : ScreenEvent → Prop
  | .pdu image updated => image.Whole ∧ image.width = s.image.width ∧ image.height = s.image.height ∧
      (updated = false → image = s.image)
  | .lagged missed => missed < s.underWay.length
  | _ => True

instance (s : Screen) : (e : ScreenEvent) → Decidable (Regular s e)
  | .pdu _ _ => inferInstanceAs (Decidable (_ ∧ _ ∧ _ ∧ (_ → _)))
  | .lagged _ => inferInstanceAs (Decidable (_ < _))
  | .frameTick | .delivered | .timer | .decoded => instDecidableTrue

/-- The viewer is opened for a session; the frames before are lost. -/
def opened (d : Desktop) (image : DecodedImage) (frameDirty : Bool) : Screen :=
  ⟨image, frameDirty, [], FrameViewer.initState d⟩

def Quiet (s : Screen) : Prop :=
  s.frameDirty = false ∧ s.underWay = [] ∧ s.viewer.debounceActive = false ∧ s.viewer.decode = none

instance (s : Screen) : Decidable s.Quiet := inferInstanceAs (Decidable (_ ∧ _ ∧ _ ∧ _))

structure Inv (d : Desktop) (updates : List DecodedImage) (seen : List ViewerEvent) (s : Screen) : Prop where
  viewer : FrameViewer.Inv d seen s.viewer
  connected : ViewerEvent.disconnect ∉ seen
  whole : s.image.Whole
  full : ∀ frame ∈ acceptedFrames seen ++ s.underWay, frame.Full s.image.width s.image.height
  newest : updates ≠ [] → s.frameDirty = false →
    ∃ frame, (acceptedFrames seen ++ s.underWay).getLast? = some frame ∧ s.image.fullFrame = some frame

variable {d : Desktop} {s s' : Screen} {e : ScreenEvent} {updates o : List DecodedImage} {seen : List ViewerEvent}

/-- The viewer goes on by itself. -/
theorem Inv.viewer_step (h : Inv d updates seen s) {event : ViewerEvent} (hevent : event = .timer ∨ event = .decoded) :
    Inv d updates (seen ++ [event]) { s with viewer := s.viewer.step d event } := by
  have hframes : acceptedFrames (seen ++ [event]) = acceptedFrames seen := by
    rw [FrameViewer.acceptedFrames_concat, if_neg h.connected]
    rcases hevent with rfl | rfl
    · exact List.append_nil _
    · exact List.append_nil _
  have hother : event ≠ .disconnect ∧ event ≠ .decodeFailed ∧ ∀ frame, event ≠ .frame frame := by
    rcases hevent with rfl | rfl
    · simp
    · simp
  refine { h with
    viewer := FrameViewer.step_inv h.viewer (fun frame heq => absurd heq (hother.2.2 frame)) hother.2.1,
    connected := by simpa [hother.1.symm] using h.connected, full := ?_, newest := ?_ }
  · rw [hframes]
    exact h.full
  · rw [hframes]
    exact h.newest

theorem step_inv (h : Inv d updates seen s) (hregular : s.Regular e) (hstep : s.step d e = some (s', o)) :
    ∃ seen', Inv d (updates ++ o) seen' s' := by
  cases e with
  | pdu image updated =>
    obtain ⟨hwhole, hwidth, hheight, hsame⟩ := hregular
    cases hstep
    refine ⟨seen, { h with whole := hwhole, full := ?_, newest := fun hupdated hdirty => ?_ }⟩
    · rw [hwidth, hheight]
      exact h.full
    · obtain ⟨hclean, rfl⟩ := Bool.or_eq_false_iff.mp hdirty
      obtain rfl := hsame rfl
      exact h.newest (by simpa using hupdated) hclean
  | frameTick =>
    cases hstep
    rw [List.append_nil]
    refine ⟨seen, ?_⟩
    split
    · obtain ⟨frame, hframe⟩ : ∃ frame, s.image.fullFrame = some frame := ⟨_, dif_pos h.whole⟩
      refine { h with full := fun old hmem => ?_, newest := fun _ _ => ⟨frame, ?_, hframe⟩ }
      · rw [hframe, ← List.append_assoc, List.mem_append] at hmem
        rcases hmem with hmem | hmem
        · exact h.full old hmem
        · obtain rfl := List.mem_singleton.mp hmem
          exact full_of_fullFrame hframe
      · rw [hframe, ← List.append_assoc]
        exact List.getLast?_concat
    · exact h
  | lagged missed =>
    cases hstep
    rw [List.append_nil]
    have hleft : s.underWay.drop missed ≠ [] := by
      rw [Ne, List.drop_eq_nil_iff]
      exact Nat.not_le_of_lt hregular
    refine ⟨seen, { h with full := fun frame hmem => h.full frame ?_, newest := fun hupdated hclean => ?_ }⟩
    · rw [List.mem_append] at hmem ⊢
      exact hmem.imp_right List.mem_of_mem_drop
    · obtain ⟨frame, hlast, hdrawn⟩ := h.newest hupdated hclean
      refine ⟨frame, ?_, hdrawn⟩
      have hsome : s.underWay ≠ [] := fun hnil => hleft (by rw [hnil, List.drop_nil])
      show (acceptedFrames seen ++ s.underWay.drop missed).getLast? = some frame
      rw [List.getLast?_append_of_ne_nil _ hleft, List.getLast?_drop, if_neg (Nat.not_le_of_lt hregular),
        ← List.getLast?_append_of_ne_nil _ hsome, hlast]
  | delivered =>
    rw [step] at hstep
    split at hstep
    · cases hstep
    · rename_i frame rest hqueue
      cases hstep
      rw [List.append_nil]
      have hfull := h.full frame (by rw [hqueue]; simp)
      have hframes : acceptedFrames (seen ++ [.frame frame]) ++ rest = acceptedFrames seen ++ s.underWay := by
        rw [FrameViewer.acceptedFrames_concat, if_neg h.connected, acceptedFrames, if_pos hfull.sized, hqueue]
        exact List.append_assoc ..
      refine ⟨seen ++ [.frame frame], { h with
        viewer := FrameViewer.step_inv h.viewer ?_ (by simp), connected := by simpa using h.connected,
        full := ?_, newest := ?_ }⟩
      · rintro _ ⟨⟩ -
        exact hfull.sized.2.2
      · rw [hframes]
        exact h.full
      · rw [hframes]
        exact h.newest
  | timer =>
    cases hstep
    rw [List.append_nil]
    exact ⟨_, h.viewer_step (.inl rfl)⟩
  | decoded =>
    cases hstep
    rw [List.append_nil]
    exact ⟨_, h.viewer_step (.inr rfl)⟩

theorem inv_of_reaches {image : DecodedImage} {frameDirty : Bool} (hwhole : image.Whole)
    (hreach : Reaches (step d) Regular (opened d image frameDirty) updates s) : ∃ seen, Inv d updates seen s := by
  refine hreach.invariant (I := fun updates s => ∃ seen, Inv d updates seen s) ?_ ?_
  · exact ⟨[], FrameViewer.initState_inv, by simp, hwhole, by simp [acceptedFrames, opened], fun hne => absurd rfl hne⟩
  · rintro updates s e s' o ⟨seen, hinv⟩ hregular hstep
    exact step_inv hinv hregular hstep

/-- The screen shows the remote desktop: when nothing is due or under way any more, the picture that is displayed is
the image of the session, opaque and on black, whatever was missed or drawn late before. -/
theorem shows_image {image : DecodedImage} {frameDirty : Bool} (hwhole : image.Whole)
    (hreach : Reaches (step d) Regular (opened d image frameDirty) updates s) (hupdated : updates ≠ [])
    (hquiet : s.Quiet) : ∃ picture, s.viewer.image = some picture ∧
      ∀ px < d.width, ∀ py < d.height, cellAt 4 d.width picture px py =
        if px < s.image.width.toNat ∧ py < s.image.height.toNat then s.image.pixel px py else [0, 0, 0, 255] := by
  obtain ⟨seen, hinv⟩ := inv_of_reaches hwhole hreach
  obtain ⟨hclean, hqueue, hidle, hdecode⟩ := hquiet
  have hlast := hinv.newest hupdated hclean
  have hfull := hinv.full
  rw [hqueue, List.append_nil] at hfull hlast
  have hseen : acceptedFrames seen ≠ [] := by
    obtain ⟨frame, hframe, -⟩ := hlast
    rintro hnil
    rw [hnil] at hframe
    cases hframe
  have hconnected := hinv.connected
  rw [← hinv.viewer.connection, Bool.not_eq_true] at hconnected
  refine ⟨_, hinv.viewer.displays hseen hidle hdecode hconnected, fun px hpx py hpy => ?_⟩
  rw [hinv.viewer.pixels px hpx py hpy, pictureOf_full hfull hlast]

/-- Two rows of one pixel, each with four bytes of padding. -/
def padded : DecodedImage := ⟨1, 2, 8, [1, 2, 3, 4, 0, 0, 0, 0, 5, 6, 7, 8, 0, 0, 0, 0]⟩

/-- A frame is missed; the next one has a row too many for the desktop, and a column too few. -/
theorem shows_image_clipped : ∃ (s : Screen) (picture : List UInt8), s.viewer.image = some picture ∧
    cellAt 4 2 picture 0 0 = [1, 2, 3, 255] ∧ cellAt 4 2 picture 1 0 = [0, 0, 0, 255] := by
  obtain ⟨updates, s, hreach, hupdated, hquiet, himage⟩ := Reaches.exists_history (step ⟨2, 1⟩)
    (opened ⟨2, 1⟩ { padded with data := List.replicate 16 0 } true)
    (P := fun updates s => updates ≠ [] ∧ s.Quiet ∧ s.image = padded)
    (fun s e => decide (Regular s e)) (fun _ _ => of_decide_eq_true)
    [.frameTick, .pdu padded true, .frameTick, .lagged 1, .delivered, .decoded] (by decide)
  obtain ⟨picture, hpicture, hshown⟩ := shows_image (by decide) hreach hupdated hquiet
  rw [himage] at hshown
  exact ⟨s, picture, hpicture, hshown 0 (by decide) 0 (by decide), hshown 1 (by decide) 0 (by decide)⟩

end Screen

end Portix.Rdp
