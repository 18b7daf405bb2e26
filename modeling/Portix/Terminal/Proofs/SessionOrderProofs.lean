import Mathlib.Data.List.InsertIdx
import Mathlib.Data.List.Nodup
import Portix.Terminal.TerminalPanelState

/-!
# The order of tabs

A session that is placed is put into the order of the others, which keep their places to each other.
-/

namespace Portix.Terminal.TerminalSessionOrderController

inductive OrderEvent where
  | ordered (ids : List String)
  | place (draggedSessionId : String) (targetSessionId : Option String) (afterTarget : Bool)
  | remove (sessionId : String)
  | restoreAtOrPlaceLast (sessionId : String) (index : Option Nat)

def apply (c : TerminalSessionOrderController) : OrderEvent → TerminalSessionOrderController
  | .ordered ids => c.update ids
  | .place dragged target afterTarget => c.place dragged target afterTarget
  | .remove id => c.remove id
  | .restoreAtOrPlaceLast id index => c.restoreAtOrPlaceLast id index

def OrderEvent.subject : OrderEvent → Option String
  | .ordered _ => none
  | .place dragged _ _ => some dragged
  | .remove id => some id
  | .restoreAtOrPlaceLast id _ => some id

/-- What `ordered` returns, for sessions that are told apart by their ids. -/
structure Returns {T : Type} (c : TerminalSessionOrderController) (sessions : List T) (idOf : T → String)
    (result : List T) : Prop where
  given : ∀ session ∈ result, session ∈ sessions
  complete : ∀ session ∈ sessions, idOf session ∈ result.map idOf
  once : (result.map idOf).Nodup
  perm : (sessions.map idOf).Nodup → result.Perm sessions
  order : ∃ new, result.map idOf = c.order.filter (fun id => id ∈ sessions.map idOf) ++ new ∧ ∀ id ∈ new, id ∉ c.order

/-- What the order of tabs promises. -/
structure Orders (c : TerminalSessionOrderController) : Prop where
  nodup : c.order.Nodup
  returns : ∀ {T : Type} (sessions : List T) (idOf : T → String), c.Returns sessions idOf (c.ordered sessions idOf)
  placed : ∀ {dragged target : String} (afterTarget : Bool), target ≠ dragged → target ∈ c.order →
    ∃ before rest, c.order.erase dragged = before ++ target :: rest ∧
      (c.place dragged (some target) afterTarget).order =
        before ++ (if afterTarget then [target, dragged] else [dragged, target]) ++ rest
  placedLast : ∀ (dragged : String) {target : Option String} (afterTarget : Bool), (∀ id ∈ target, id ∉ c.order) →
    (c.place dragged target afterTarget).order = c.order.erase dragged ++ [dragged]
  others : ∀ event : OrderEvent,
    (c.apply event).order.filter (fun id => id ∈ c.order ∧ event.subject ≠ some id) =
      c.order.filter fun id => id ∈ (c.apply event).order ∧ event.subject ≠ some id
  restored : ∀ {removed successor : String} {i : Nat}, c.indexOf removed = some i →
    successor ∉ (c.remove removed).order →
    ∀ listed : List (List String), (∀ ids ∈ listed, (c.remove removed).order ⊆ ids) →
    ∀ j < c.order.length, j ≠ i →
      ((listed.foldl update (c.remove removed)).restoreAtOrPlaceLast successor (some i)).order[j]? = c.order[j]?

variable {c : TerminalSessionOrderController} {dragged : String}

theorem insertIdx_eq {α : Type} {l : List α} {k : Nat} (h : k ≤ l.length) (a : α) :
    l.insertIdx k a = l.take k ++ a :: l.drop k := by
  induction l generalizing k with
  | nil =>
    obtain rfl : k = 0 := Nat.le_zero.mp h
    rfl
  | cons b l ih =>
    cases k with
    | zero => rfl
    | succ k => rw [List.insertIdx_succ_cons, ih (Nat.le_of_succ_le_succ h), List.take_succ_cons, List.drop_succ_cons,
        List.cons_append]

/-- A session is put into the order of the others. -/
def PutIn (id : String) (c c' : TerminalSessionOrderController) : Prop :=
  ∃ before rest, c.order.erase id = before ++ rest ∧ c'.order = before ++ id :: rest

variable {c' : TerminalSessionOrderController}

theorem putIn_last (id : String) (h : c'.order = c.order.erase id ++ [id]) :
    PutIn id c c' := ⟨c.order.erase id, [], (List.append_nil _).symm, h⟩

variable {id : String}

theorem putIn_insertIdx {k : Nat} (hk : k ≤ (c.order.erase id).length)
    (h : c'.order = (c.order.erase id).insertIdx k id) : PutIn id c c' :=
  ⟨(c.order.erase id).take k, (c.order.erase id).drop k, (List.take_append_drop _ _).symm, h.trans (insertIdx_eq hk id)⟩

theorem idxOf?_erase {target : String} (hne : target ≠ dragged) (hmem : target ∈ c.order) :
    ∃ k, (c.order.erase dragged).idxOf? target = some k ∧ k < (c.order.erase dragged).length ∧
      (c.order.erase dragged)[k]? = some target := by
  have hkept : target ∈ c.order.erase dragged := (List.mem_erase_of_ne hne).mpr hmem
  obtain ⟨k, hindex⟩ := Option.isSome_iff_exists.mp (List.isSome_idxOf?.mpr hkept)
  obtain ⟨hlt, hat, -⟩ := List.idxOf?_eq_some_iff.mp hindex
  exact ⟨k, hindex, hlt, by rw [List.getElem?_eq_getElem hlt, hat]⟩

theorem putIn_place (c : TerminalSessionOrderController) (dragged : String) (target : Option String)
    (afterTarget : Bool) : PutIn dragged c (c.place dragged target afterTarget) := by
  cases hindex : target.bind fun target => (c.order.erase dragged).idxOf? target with
  | none =>
    refine putIn_last dragged ?_
    rw [place, hindex]
  | some k =>
    obtain ⟨id, -, hat⟩ := Option.bind_eq_some_iff.mp hindex
    obtain ⟨hlt, -⟩ := List.idxOf?_eq_some_iff.mp hat
    refine putIn_insertIdx (k := if afterTarget then k + 1 else k) (by split <;> omega) ?_
    rw [place, hindex]

theorem putIn_restore (c : TerminalSessionOrderController) (id : String) (index : Option Nat) :
    PutIn id c (c.restoreAtOrPlaceLast id index) := by
  cases index with
  | none => exact putIn_last id rfl
  | some k =>
    by_cases hk : k ≤ (c.order.erase id).length
    · exact putIn_insertIdx hk (if_pos hk)
    · exact putIn_last id (if_neg hk)

theorem PutIn.nodup (h : PutIn id c c') (hnodup : c.order.Nodup) : c'.order.Nodup := by
  obtain ⟨before, rest, herase, horder⟩ := h
  rw [horder, List.perm_middle.nodup_iff, ← herase, List.nodup_cons]
  exact ⟨hnodup.not_mem_erase, hnodup.erase id⟩

theorem PutIn.others (h : PutIn id c c') (hnodup : c.order.Nodup) :
    c'.order.filter (fun other => other ∈ c.order ∧ some id ≠ some other) =
      c.order.filter fun other => other ∈ c'.order ∧ some id ≠ some other := by
  obtain ⟨before, rest, herase, horder⟩ := h
  have hkept : ∀ other ∈ c.order, id ≠ other → other ∈ c'.order := by
    intro other hmem hne
    have hothers : other ∈ before ++ rest := herase ▸ (List.mem_erase_of_ne hne.symm).mpr hmem
    rw [horder]
    rcases List.mem_append.mp hothers with hbefore | hrest
    · exact List.mem_append_left _ hbefore
    · exact List.mem_append_right _ (List.mem_cons_of_mem id hrest)
  have hsame : c'.order.filter (fun other => other ∈ c.order ∧ some id ≠ some other) =
      (c.order.erase id).filter fun other => other ∈ c.order ∧ some id ≠ some other := by
    rw [horder, herase, List.filter_append, List.filter_append, List.filter_cons_of_neg (by simp)]
  rw [hsame, hnodup.erase_eq_filter, List.filter_filter]
  refine List.filter_congr fun other hmem => ?_
  rw [Bool.eq_iff_iff]
  simp only [Bool.and_eq_true, decide_eq_true_eq, bne_iff_ne, ne_eq, Option.some.injEq, hmem, true_and]
  constructor
  · exact fun hne => ⟨hkept other hmem hne.1, hne.1⟩
  · exact fun hne => ⟨hne.2, fun heq => hne.2 heq.symm⟩

/-- Those that are missing are added behind, once. -/
theorem exists_foldl (ids order : List String) :
    ∃ new, ids.foldl (fun order id => if id ∈ order then order else order ++ [id]) order = order ++ new ∧
      new.Nodup ∧ ∀ id, id ∈ new ↔ id ∈ ids ∧ id ∉ order := by
  induction ids generalizing order with
  | nil => exact ⟨[], (List.append_nil order).symm, List.nodup_nil, by simp⟩
  | cons first ids ih =>
    rw [List.foldl_cons]
    by_cases hmem : first ∈ order
    · rw [if_pos hmem]
      obtain ⟨new, hfold, hnodup, hnew⟩ := ih order
      refine ⟨new, hfold, hnodup, fun id => ?_⟩
      rw [hnew, List.mem_cons]
      constructor
      · exact fun h => ⟨.inr h.1, h.2⟩
      · rintro ⟨rfl | hid, hnot⟩
        · exact absurd hmem hnot
        · exact ⟨hid, hnot⟩
    · rw [if_neg hmem]
      obtain ⟨new, hfold, hnodup, hnew⟩ := ih (order ++ [first])
      refine ⟨first :: new, by rw [hfold, List.append_assoc]; rfl, ?_, fun id => ?_⟩
      · rw [List.nodup_cons]
        exact ⟨fun hfirst => ((hnew first).mp hfirst).2 (by simp), hnodup⟩
      · rw [List.mem_cons, hnew, List.mem_cons, List.mem_append, List.mem_singleton]
        by_cases hfirst : id = first
        · simp [hfirst, hmem]
        · simp [hfirst]

theorem exists_update (c : TerminalSessionOrderController) (ids : List String) :
    ∃ new, (c.update ids).order = c.order.filter (fun id => id ∈ ids) ++ new ∧ new.Nodup ∧
      ∀ id, id ∈ new ↔ id ∈ ids ∧ id ∉ c.order := by
  obtain ⟨new, hfold, hnodup, hnew⟩ := exists_foldl ids (c.order.filter fun id => id ∈ ids)
  refine ⟨new, hfold, hnodup, fun id => (hnew id).trans (and_congr_right fun hid => ?_)⟩
  rw [List.mem_filter, decide_eq_true_eq, and_iff_left hid]

theorem mem_update {ids : List String} : id ∈ (c.update ids).order ↔ id ∈ ids := by
  obtain ⟨new, horder, -, hnew⟩ := c.exists_update ids
  rw [horder, List.mem_append, hnew, List.mem_filter, decide_eq_true_eq]
  tauto

theorem nodup_update (hnodup : c.order.Nodup) (ids : List String) : (c.update ids).order.Nodup := by
  obtain ⟨new, horder, hnew, hmem⟩ := c.exists_update ids
  rw [horder]
  refine (hnodup.filter _).append hnew fun id hold hid => ?_
  exact ((hmem id).mp hid).2 (List.mem_of_mem_filter hold)

theorem map_idOf_ordered {T : Type} (sessions : List T) (idOf : T → String) :
    (c.ordered sessions idOf).map idOf = (c.update (sessions.map idOf)).order := by
  have hfound : ∀ id ∈ (c.update (sessions.map idOf)).order,
      (sessions.reverse.find? fun session => idOf session = id).map idOf = some id := by
    intro id hmem
    obtain ⟨session, hsession, rfl⟩ := List.mem_map.mp (mem_update.mp hmem)
    have hsome : (sessions.reverse.find? fun other => idOf other = idOf session).isSome :=
      List.find?_isSome.mpr ⟨session, List.mem_reverse.mpr hsession, decide_eq_true rfl⟩
    obtain ⟨other, hother⟩ := Option.isSome_iff_exists.mp hsome
    have hsame : idOf other = idOf session := by simpa using List.find?_some hother
    rw [hother, Option.map_some, hsame]
  rw [ordered, List.map_filterMap, List.filterMap_congr hfound]
  exact List.filterMap_some

theorem returns_ordered (hnodup : c.order.Nodup) {T : Type} (sessions : List T) (idOf : T → String) :
    c.Returns sessions idOf (c.ordered sessions idOf) := by
  have hids := c.map_idOf_ordered sessions idOf
  have hgiven : ∀ session ∈ c.ordered sessions idOf, session ∈ sessions := by
    intro session hmem
    obtain ⟨id, -, hfound⟩ := List.mem_filterMap.mp hmem
    exact List.mem_reverse.mp (List.mem_of_find?_eq_some hfound)
  have hcomplete : ∀ session ∈ sessions, idOf session ∈ (c.ordered sessions idOf).map idOf := by
    intro session hmem
    rw [hids]
    exact mem_update.mpr (List.mem_map_of_mem hmem)
  have honce : ((c.ordered sessions idOf).map idOf).Nodup := hids ▸ nodup_update hnodup _
  refine ⟨hgiven, hcomplete, honce, fun hdistinct => ?_, ?_⟩
  · refine (List.perm_ext_iff_of_nodup honce.of_map hdistinct.of_map).mpr fun session =>
      ⟨hgiven session, fun hmem => ?_⟩
    obtain ⟨other, hother, hsame⟩ := List.mem_map.mp (hcomplete session hmem)
    rwa [← List.inj_on_of_nodup_map hdistinct (hgiven other hother) hmem hsame]
  · obtain ⟨new, horder, -, hnew⟩ := c.exists_update (sessions.map idOf)
    exact ⟨new, hids.trans horder, fun id hid => ((hnew id).mp hid).2⟩

theorem exists_foldl_update {others : List String} (listed : List (List String))
    (hlisted : ∀ ids ∈ listed, others ⊆ ids)
    {c : TerminalSessionOrderController} (hc : ∃ new, c.order = others ++ new) :
    ∃ new, (listed.foldl update c).order = others ++ new := by
  induction listed generalizing c with
  | nil => exact hc
  | cons ids listed ih =>
    refine ih (fun ids' hmem => hlisted ids' (List.mem_cons_of_mem ids hmem)) ?_
    obtain ⟨new, horder⟩ := hc
    obtain ⟨added, hadded, -⟩ := c.exists_update ids
    have hall : others.filter (fun id => id ∈ ids) = others :=
      List.filter_eq_self.mpr fun id hid => decide_eq_true (hlisted ids List.mem_cons_self hid)
    refine ⟨new.filter (fun id => id ∈ ids) ++ added, ?_⟩
    rw [hadded, horder, List.filter_append, hall, List.append_assoc]

theorem restored {removed successor : String} {i : Nat} (hindex : c.indexOf removed = some i)
    (hnot : successor ∉ (c.remove removed).order) (listed : List (List String))
    (hlisted : ∀ ids ∈ listed, (c.remove removed).order ⊆ ids) {j : Nat} (hj : j < c.order.length) (hne : j ≠ i) :
    ((listed.foldl update (c.remove removed)).restoreAtOrPlaceLast successor (some i)).order[j]? = c.order[j]? := by
  obtain ⟨new, horder⟩ := exists_foldl_update listed hlisted ⟨[], (List.append_nil _).symm⟩
  obtain ⟨hi, -⟩ := List.idxOf?_eq_some_iff.mp hindex
  have heraseIdx : (c.remove removed).order = c.order.eraseIdx i := by
    rw [indexOf] at hindex
    rw [remove, List.erase_eq_eraseIdx, hindex]
  have hlength : (c.remove removed).order.length + 1 = c.order.length := by
    rw [heraseIdx, List.length_eraseIdx_of_lt hi]
    omega
  have herase : (listed.foldl update (c.remove removed)).order.erase successor =
      (c.remove removed).order ++ new.erase successor := by
    rw [horder, List.erase_append_right _ hnot]
  have hle : i ≤ ((c.remove removed).order ++ new.erase successor).length := by
    rw [List.length_append]
    omega
  rw [restoreAtOrPlaceLast]
  dsimp only
  rw [herase, if_pos hle, List.getElem?_insertIdx]
  split
  next hlt =>
    rw [List.getElem?_append_left (by omega), heraseIdx, List.getElem?_eraseIdx_of_lt hlt]
  next hge =>
    rw [List.getElem?_append_left (by omega), heraseIdx, List.getElem?_eraseIdx_of_ge (by omega),
      Nat.sub_add_cancel (by omega)]

theorem nodup_apply (hnodup : c.order.Nodup) (event : OrderEvent) : (c.apply event).order.Nodup := by
  cases event with
  | ordered ids => exact nodup_update hnodup ids
  | place dragged target afterTarget => exact (putIn_place c dragged target afterTarget).nodup hnodup
  | remove id => exact hnodup.erase id
  | restoreAtOrPlaceLast id index => exact (putIn_restore c id index).nodup hnodup

theorem others_apply (hnodup : c.order.Nodup) (event : OrderEvent) :
    (c.apply event).order.filter (fun id => id ∈ c.order ∧ event.subject ≠ some id) =
      c.order.filter fun id => id ∈ (c.apply event).order ∧ event.subject ≠ some id := by
  cases event with
  | ordered ids =>
    obtain ⟨new, horder, -, hnew⟩ := c.exists_update ids
    show (c.update ids).order.filter _ = c.order.filter fun id => decide (id ∈ (c.update ids).order ∧ _)
    have hnone : new.filter (fun id => id ∈ c.order ∧ OrderEvent.subject (.ordered ids) ≠ some id) = [] := by
      refine List.filter_eq_nil_iff.mpr fun id hid hmem => ?_
      exact ((hnew id).mp hid).2 (of_decide_eq_true hmem).1
    simp only [mem_update]
    rw [horder, List.filter_append, hnone, List.append_nil, List.filter_filter]
    refine List.filter_congr fun id hmem => ?_
    simp [OrderEvent.subject, hmem]
  | place dragged target afterTarget => exact (putIn_place c dragged target afterTarget).others hnodup
  | remove id =>
    show (c.order.erase id).filter _ = c.order.filter fun other => decide (other ∈ c.order.erase id ∧ _)
    rw [hnodup.erase_eq_filter, List.filter_filter]
    refine List.filter_congr fun other hmem => ?_
    by_cases hsame : id = other
    · simp [OrderEvent.subject, hsame]
    · simp [OrderEvent.subject, hmem, hsame, Ne.symm hsame]
  | restoreAtOrPlaceLast id index => exact (putIn_restore c id index).others hnodup

/-- The promises hold after any changes. -/
theorem order_kept (events : List OrderEvent) : (events.foldl apply {}).Orders := by
  have hrun : ∀ {c : TerminalSessionOrderController}, c.order.Nodup → (events.foldl apply c).order.Nodup := by
    induction events with
    | nil => exact id
    | cons event events ih => exact fun hnodup => ih (nodup_apply hnodup event)
  have hnodup : (events.foldl apply {}).order.Nodup := hrun List.nodup_nil
  refine ⟨hnodup, returns_ordered hnodup, ?_, ?_, others_apply hnodup, fun hindex hnot listed hlisted j hj hne =>
    restored hindex hnot listed hlisted hj hne⟩
  · intro dragged target afterTarget hne hmem
    obtain ⟨k, hindex, hlt, hat⟩ := idxOf?_erase hne hmem
    have hsplit := List.drop_eq_getElem_cons hlt
    rw [(List.getElem?_eq_some_iff.mp hat).2] at hsplit
    refine ⟨_, _, by rw [← hsplit, List.take_append_drop], ?_⟩
    rw [place]
    dsimp only
    rw [Option.bind_some, hindex]
    cases afterTarget with
    | true =>
      dsimp only
      rw [if_pos rfl, if_pos rfl, insertIdx_eq hlt, List.take_add_one, hat]
      simp
    | false =>
      dsimp only
      rw [if_neg Bool.false_ne_true, if_neg Bool.false_ne_true, insertIdx_eq hlt.le, hsplit]
      simp
  · intro dragged target afterTarget hnone
    have hindex : (target.bind fun id => ((events.foldl apply {}).order.erase dragged).idxOf? id) = none := by
      cases target with
      | none => rfl
      | some id => exact List.idxOf?_eq_none_iff.mpr fun hmem => hnone id rfl (List.mem_of_mem_erase hmem)
    rw [place, hindex]

end Portix.Terminal.TerminalSessionOrderController
