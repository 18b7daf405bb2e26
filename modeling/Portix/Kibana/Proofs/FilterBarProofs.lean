import Portix.Kibana.KibanaFilters
import Portix.Kibana.Proofs.KibanaPageProofs

/-!
# Soundness theorems for the filter bar
-/

namespace Portix.Kibana.KibanaPage

open Lib

variable {ν κ : Type} [DecidableEq ν] [DecidableEq κ] {valueText : ν → ValueText} {readDouble thrown : String → String}
  {content : ν → κ} {s s' s'' : KibanaPage ν}

/-- The pills stay, and what is searched for anew is what they say. -/
structure Sends (valueText : ν → ValueText) (s s' : KibanaPage ν) : Prop where
  filters : s'.filters = s.filters
  disabled : s'.disabled = s.disabled
  sent : ∀ (i : Nat) request texts, (s'.calls[i]?).map KibanaCall.task = some (.search request texts) →
    (s.calls[i]?).map KibanaCall.task = some (.search request texts) ∨
      request.query = kibanaQueryWith valueText texts.query s'.enabled

theorem enabled_congr (hfilters : s'.filters = s.filters) (hdisabled : s'.disabled = s.disabled) :
    s'.enabled = s.enabled := by
  rw [enabled, enabled, hfilters, hdisabled]

theorem Sends.of_calls (hfilters : s'.filters = s.filters) (hdisabled : s'.disabled = s.disabled)
    (hcalls : s'.calls = s.calls) : Sends valueText s s' :=
  ⟨hfilters, hdisabled, fun i request texts h => .inl (by rwa [hcalls] at h)⟩

theorem Sends.trans (h : Sends valueText s s') (h' : Sends valueText s' s'') : Sends valueText s s'' := by
  refine ⟨h'.filters.trans h.filters, h'.disabled.trans h.disabled, fun i request texts hi => ?_⟩
  rcases h'.sent i request texts hi with hold | hnew
  · rw [enabled_congr h'.filters h'.disabled]
    exact h.sent i request texts hold
  · exact .inr hnew

variable {call : KibanaCall}

theorem sends_begin (hcall : ∀ request texts, call.task = .search request texts →
      request.query = kibanaQueryWith valueText texts.query s.enabled) : Sends valueText s (s.begin call) := by
  refine ⟨rfl, rfl, fun i request texts hi => ?_⟩
  obtain ⟨call', hat, htask⟩ := Option.map_eq_some_iff.mp hi
  rcases getElem?_concat_eq_some.mp hat with hold | ⟨-, rfl⟩
  · exact .inl (Option.map_eq_some_iff.mpr ⟨call', hold, htask⟩)
  · exact .inr (hcall request texts htask)

theorem sends_begin_other (hcall : ∀ request texts, call.task ≠ .search request texts) :
    Sends valueText s (s.begin call) :=
  sends_begin fun request texts htask => absurd htask (hcall request texts)

theorem sends_set {i : Nat} {call call' : KibanaCall} (hat : s.calls[i]? = some call)
    (hfilters : s'.filters = s.filters) (hdisabled : s'.disabled = s.disabled) (hcalls : s'.calls = s.calls.set i call')
    (hcall : call'.task = call.task ∨ ∀ request texts, call'.task = .search request texts →
      request.query = kibanaQueryWith valueText texts.query s.enabled) : Sends valueText s s' := by
  refine ⟨hfilters, hdisabled, fun j request texts hj => ?_⟩
  rw [hcalls] at hj
  obtain ⟨found, hfound, htask⟩ := Option.map_eq_some_iff.mp hj
  rcases (getElem?_set_eq_some hat).mp hfound with ⟨rfl, rfl⟩ | ⟨-, hold⟩
  · rcases hcall with hsame | hnew
    · exact .inl (Option.map_eq_some_iff.mpr ⟨call, hat, hsame.symm.trans htask⟩)
    · rw [enabled_congr hfilters hdisabled]
      exact .inr (hnew request texts htask)
  · exact .inl (Option.map_eq_some_iff.mpr ⟨found, hold, htask⟩)

theorem query_searchFor (texts : KibanaTexts) (range : KibanaRange) :
    (s.searchFor valueText texts range).query = kibanaQueryWith valueText texts.query s.enabled := by
  rw [searchFor, enabled]

theorem sends_search (now : Int) : Sends valueText s (s.search valueText now) := by
  have hquery : ∀ range request texts,
      KibanaTask.search (s.searchFor valueText s.texts range) s.texts = .search request texts →
        request.query = kibanaQueryWith valueText texts.query s.enabled := by
    rintro range request texts ⟨⟩
    exact query_searchFor _ _
  have hstart : Sends valueText s { s with loading := true, error := none } := .of_calls rfl rfl rfl
  unfold search
  split
  · split
    · exact .of_calls rfl rfl rfl
    · exact hstart.trans (sends_begin (hquery _))
  · split
    · exact .of_calls rfl rfl rfl
    · exact hstart.trans (sends_begin (hquery _))

theorem sends_connect (login : KibanaLogin) : Sends valueText s (s.connect login) := by
  have hsaved : Sends valueText s ({ s with
      login := some login, dataView := none, timeField := "@timestamp", result := none, error := none }.saveLogin
        (some login) login) := .of_calls rfl rfl rfl
  exact hsaved.trans (sends_begin_other fun _ _ => nofun)

theorem sends_display (result : Except String String) (range : KibanaRange) :
    Sends valueText s (s.display readDouble result range) := by
  rw [display_eq_showing]
  exact .of_calls rfl rfl rfl

theorem sends_finish (call : KibanaCall) (result : Except String String) (now : Int) :
    Sends valueText s (s.finish valueText readDouble call result now) := by
  unfold finish
  split
  · exact sends_display result _
  · exact .of_calls rfl rfl rfl
  · refine Sends.trans ?_ (sends_search now)
    exact .of_calls rfl rfl rfl
  · exact sends_search now
  · split
    · exact sends_connect _
    · exact .of_calls rfl rfl rfl
  · exact .of_calls rfl rfl rfl
  · exact .of_calls rfl rfl rfl

theorem sends_react {i : Nat} (hat : s.calls[i]? = some call) (reply : KibanaReply) (now : Int) :
    Sends valueText s (s.react valueText readDouble i call now reply) := by
  cases reply with
  | restore saved =>
    have hdone : Sends valueText s { s with calls := s.calls.set i { call with stage := .done (.ok "") } } :=
      sends_set hat rfl rfl rfl (.inl rfl)
    simp only [react]
    split
    · exact hdone
    · exact hdone.trans (.of_calls rfl rfl rfl)
  | wait stage => exact sends_set hat rfl rfl rfl (.inl rfl)
  | ask => exact sends_set hat rfl rfl rfl (.inl rfl)
  | sign old login => exact sends_set hat rfl rfl rfl (.inl rfl)
  | resend =>
    refine sends_set hat rfl rfl rfl (.inr fun request texts htask => ?_)
    unfold resent at htask
    cases hcall : call.task with
    | search request' texts' =>
      rw [hcall] at htask
      cases htask
      exact query_searchFor _ _
    | restore | dataViews | pick | connect | edit _ _ | save =>
      rw [hcall] at htask
      exact nomatch htask
  | finish result =>
    have hdone : Sends valueText s { s with calls := s.calls.set i { call with stage := .done result } } :=
      sends_set hat rfl rfl rfl (.inl rfl)
    exact hdone.trans (sends_finish call result now)

/-- The disabled pills are on the bar, and no two pills are the same. -/
structure BarInv (s : KibanaPage ν) : Prop where
  onBar : ∀ f ∈ s.disabled, f ∈ s.filters
  filters : s.filters.Nodup
  disabled : s.disabled.Nodup

omit [DecidableEq ν] in
theorem BarInv.congr (h : s.BarInv) (hfilters : s'.filters = s.filters) (hdisabled : s'.disabled = s.disabled) :
    s'.BarInv := by
  constructor
  · rw [hfilters, hdisabled]
    exact h.onBar
  · rw [hfilters]
    exact h.filters
  · rw [hdisabled]
    exact h.disabled

theorem notMem_of_add {filter : KibanaFilter ν} :
    filter ∉ s.filters.filter fun f => ¬(f.field = filter.field ∧ f.value = filter.value) := by
  intro hmem
  have hne := (List.mem_filter.mp hmem).2
  simp at hne

theorem apart_add {filter : KibanaFilter ν} (h : s.apart content (.filter (.add filter)) = true) :
    (∀ f ∈ s.disabled, ¬(f.field = filter.field ∧ f.value = filter.value)) ∧
      ∀ f ∈ s.filters, f.field = filter.field → f.value.map content = filter.value.map content →
        f.value = filter.value := by
  obtain ⟨hdisabled, hfilters⟩ := Bool.and_eq_true_iff.mp h
  constructor
  · intro f hf
    have hne := List.all_eq_true.mp hdisabled f hf
    rwa [Bool.not_eq_true', decide_eq_false_iff_not] at hne
  · intro f hf hfield hcontent
    simpa [hfield, hcontent] using List.all_eq_true.mp hfilters f hf

theorem BarInv.change (h : s.BarInv) {c : FilterChange ν} (hclicked : s.clicked (.filter c) = true)
    (hapart : s.apart content (.filter c) = true) : (s.change c).BarInv := by
  cases c with
  | add filter =>
    obtain ⟨hdisabled, -⟩ := apart_add hapart
    refine ⟨fun f hf => ?_, ?_, h.disabled⟩
    · exact List.mem_append_left _ (List.mem_filter.mpr ⟨h.onBar f hf, decide_eq_true (hdisabled f hf)⟩)
    · rw [KibanaPage.change, List.nodup_append]
      refine ⟨h.filters.filter _, List.nodup_singleton filter, ?_⟩
      rintro f hf g hg rfl
      rw [List.mem_singleton.mp hg] at hf
      exact notMem_of_add hf
  | remove filter =>
    refine ⟨fun f hf => ?_, h.filters.erase filter, h.disabled.erase filter⟩
    obtain ⟨hne, hmem⟩ := h.disabled.mem_erase_iff.mp hf
    exact h.filters.mem_erase_iff.mpr ⟨hne, h.onBar f hmem⟩
  | replace old next =>
    have hold : old ∈ s.filters := of_decide_eq_true hclicked
    have hat : s.filters[s.filters.idxOf old]? = some old := List.getElem?_idxOf hold
    have hnext : next = old ∨ next ∉ s.filters := by simpa [apart] using hapart
    refine ⟨fun f hf => ?_, ?_, h.disabled.erase old⟩
    · obtain ⟨hne, hmem⟩ := h.disabled.mem_erase_iff.mp hf
      obtain ⟨j, hj⟩ := List.mem_iff_getElem?.mp (h.onBar f hmem)
      rw [KibanaPage.change, if_pos hold]
      refine List.mem_iff_getElem?.mpr ⟨j, (getElem?_set_of_ne hat hne ?_).mpr hj⟩
      rintro rfl
      rcases hnext with rfl | hnext
      · exact hne rfl
      · exact hnext (h.onBar f hmem)
    · rw [KibanaPage.change, if_pos hold]
      rcases hnext with rfl | hnext
      · obtain ⟨hlt, heq⟩ := List.getElem?_eq_some_iff.mp hat
        have hself := List.set_getElem_self hlt
        rw [heq] at hself
        rw [hself]
        exact h.filters
      · exact h.filters.set hnext
  | toggle filter =>
    have hon : filter ∈ s.filters := of_decide_eq_true hclicked
    rw [KibanaPage.change]
    by_cases hmem : filter ∈ s.disabled
    · rw [if_pos hmem]
      exact ⟨fun f hf => h.onBar f (List.mem_of_mem_erase hf), h.filters, h.disabled.erase filter⟩
    · rw [if_neg hmem]
      refine ⟨fun f hf => ?_, h.filters, ?_⟩
      · rcases List.mem_append.mp hf with hf | hf
        · exact h.onBar f hf
        · rwa [List.mem_singleton.mp hf]
      · refine List.nodup_append.mpr ⟨h.disabled, List.nodup_singleton filter, ?_⟩
        rintro f hf g hg rfl
        exact hmem (List.mem_singleton.mp hg ▸ hf)
  | clear => exact ⟨List.forall_mem_nil _, List.nodup_nil, List.nodup_nil⟩

theorem BarInv.agrees (h : s.BarInv) {c : FilterChange ν} (hclicked : s.clicked (.filter c) = true)
    (hapart : s.apart content (.filter c) = true) (hsends : Sends valueText (s.change c) s') :
    s.BarAgrees valueText content (.filter c) s' := by
  have hinv := (h.change hclicked hapart).congr hsends.filters hsends.disabled
  constructor
  · exact hinv.onBar
  · intro f hputs
    rw [enabled, hsends.filters, hsends.disabled]
    cases c with
    | add filter =>
      obtain rfl := hputs
      obtain ⟨hdisabled, -⟩ := apart_add hapart
      refine List.mem_filter.mpr ⟨List.mem_append_right _ (List.mem_singleton_self f), decide_eq_true fun hmem => ?_⟩
      exact hdisabled f hmem ⟨rfl, rfl⟩
    | replace old next =>
      obtain ⟨hold, rfl⟩ := hputs
      have hat : s.filters[s.filters.idxOf old]? = some old := List.getElem?_idxOf hold
      have hnext : f = old ∨ f ∉ s.filters := by simpa [apart] using hapart
      rw [KibanaPage.change, if_pos hold]
      refine List.mem_filter.mpr ⟨?_, decide_eq_true fun hmem => ?_⟩
      · exact List.mem_iff_getElem?.mpr ⟨_, (getElem?_set_eq_some hat).mpr (.inl ⟨rfl, rfl⟩)⟩
      · obtain ⟨hne, hmem⟩ := h.disabled.mem_erase_iff.mp hmem
        exact hnext.elim hne fun hnot => hnot (h.onBar f hmem)
    | remove _ | toggle _ | clear => exact nomatch hputs
  · rintro f ⟨⟩
    obtain ⟨-, hfilters⟩ := apart_add hapart
    have hnone : ((s.filters.filter fun g => ¬(g.field = f.field ∧ g.value = f.value)).filter fun g =>
        g.field = f.field ∧ g.value.map content = f.value.map content) = [] := by
      refine List.filter_eq_nil_iff.mpr fun g hg hsame => ?_
      obtain ⟨hmem, hne⟩ := List.mem_filter.mp hg
      obtain ⟨hfield, hcontent⟩ := of_decide_eq_true hsame
      exact of_decide_eq_true hne ⟨hfield, hfilters g hmem hfield hcontent⟩
    rw [hsends.filters, KibanaPage.change, List.filter_append, hnone, List.nil_append]
    exact List.length_filter_le _ [f]
  · intro f heq i hi
    cases heq
    obtain ⟨hlt, hf⟩ := List.getElem?_eq_some_iff.mp hi
    refine ⟨?_, fun j g hne hj => ?_⟩
    · have herase := h.filters.erase_getElem i hlt
      rw [hf] at herase
      exact hsends.filters.trans herase
    · have hother : g ≠ f := fun heq => hne ((List.getElem?_inj hlt h.filters).mp (by rw [hi, hj, heq])).symm
      rw [hsends.disabled, KibanaPage.change]
      exact List.mem_erase_of_ne hother
  · intro old next heq i hi
    cases heq
    obtain ⟨hlt, hold⟩ := List.getElem?_eq_some_iff.mp hi
    refine ⟨?_, fun j g hne hj => ?_⟩
    · have hidx := h.filters.idxOf_getElem i hlt
      rw [hold] at hidx
      rw [hsends.filters, KibanaPage.change, if_pos (List.mem_of_getElem? hi), hidx]
    · have hother : g ≠ old := fun heq => hne ((List.getElem?_inj hlt h.filters).mp (by rw [hi, hj, heq])).symm
      rw [hsends.disabled, KibanaPage.change]
      exact List.mem_erase_of_ne hother
  · have hcalls : (s.change c).calls = s.calls := by cases c <;> rfl
    intro i request texts hi
    rw [← hcalls]
    exact hsends.sent i request texts hi

theorem BarInv.agrees_of_sends (h : s.BarInv) {e : KibanaEvent ν} (he : ∀ c, e ≠ .filter c)
    (hsends : Sends valueText s s') : s.BarAgrees valueText content e s' := by
  constructor
  · exact (h.congr hsends.filters hsends.disabled).onBar
  · intro f hputs
    cases e with
    | filter c => exact absurd rfl (he c)
    | _ => exact nomatch hputs
  · exact fun f heq => absurd heq (he _)
  · exact fun f heq => absurd heq (he _)
  · exact fun old next heq => absurd heq (he _)
  · exact hsends.sent

theorem BarInv.step (h : s.BarInv) {e : KibanaEvent ν × Int} {o : List Unit} (hclicked : s.clicked e.1 = true)
    (hapart : s.apart content e.1 = true) (hstep : s.step valueText readDouble thrown e = some (s', o)) :
    s.BarAgrees valueText content e.1 s' ∧ s'.BarInv := by
  obtain ⟨e, now⟩ := e
  have hother : (∀ c, e ≠ .filter c) → Sends valueText s s' → s.BarAgrees valueText content e s' ∧ s'.BarInv :=
    fun he hsends => ⟨h.agrees_of_sends he hsends, h.congr hsends.filters hsends.disabled⟩
  unfold KibanaPage.step at hstep
  split at hstep
  · cases e with
    | filter c =>
      cases hstep
      have hsends : Sends valueText (s.change c) ((s.change c).search valueText now) := sends_search now
      exact ⟨h.agrees hclicked hapart hsends, (h.change hclicked hapart).congr hsends.filters hsends.disabled⟩
    | answer i answer =>
      obtain ⟨call, hat, hcall⟩ := Option.bind_eq_some_iff.mp hstep
      obtain ⟨reply, -, ⟨⟩⟩ := Option.map_eq_some_iff.mp hcall
      have hsaved : Sends valueText s (s.saved answer) := by
        unfold saved
        split <;> exact .of_calls rfl rfl rfl
      have hat' : (s.saved answer).calls[i]? = some call := by
        unfold saved
        split <;> exact hat
      exact hother (fun _ => nofun) (hsaved.trans (sends_react hat' reply now))
    | edit texts | disconnect | disconnectSsh =>
      cases hstep
      exact hother (fun _ => nofun) (.of_calls rfl rfl rfl)
    | setDirect direct =>
      cases hstep
      refine hother (fun _ => nofun) ?_
      unfold setDirect
      split <;> exact .of_calls rfl rfl rfl
    | search =>
      cases hstep
      exact hother (fun _ => nofun) (sends_search now)
    | setLast _ | zoom _ | connectSsh =>
      cases hstep
      refine hother (fun _ => nofun) (Sends.trans ?_ (sends_search now))
      exact .of_calls rfl rfl rfl
    | pickServer id =>
      cases hstep
      have hpicked : Sends valueText s { s with profileId := some id } := .of_calls rfl rfl rfl
      refine hother (fun _ => nofun) ?_
      split
      · exact hpicked.trans (sends_search now)
      · exact hpicked
    | pickDataView view | loadDataViews | newLogin _ | editLogin _ _ =>
      cases hstep
      refine hother (fun _ => nofun) (Sends.trans ?_ (sends_begin_other fun _ _ => nofun))
      exact .of_calls rfl rfl rfl
    | connect login =>
      cases hstep
      exact hother (fun _ => nofun) (sends_connect login)
    | deleteLogin login =>
      cases hstep
      refine hother (fun _ => nofun) (Sends.trans ?_ (sends_begin_other fun _ _ => nofun))
      split <;> exact .of_calls rfl rfl rfl
  · exact nomatch hstep

/-- On a run that adds and replaces filters carefully, the bar and the query agree after every step. -/
theorem filters_agree (valueText : ν → ValueText) (readDouble thrown : String → String) (content : ν → κ)
    (profiles : List String) (h : List Unit) (s : KibanaPage ν)
    (hreach : Reaches (step valueText readDouble thrown)
      (fun s e => (s.clicked e.1 && s.apart content e.1) = true) (opened profiles) h s) :
    (∀ f ∈ s.disabled, f ∈ s.filters) ∧
      ∀ e s' o, s.clicked e.1 = true → s.apart content e.1 = true →
        s.step valueText readDouble thrown e = some (s', o) → s.BarAgrees valueText content e.1 s' := by
  have hinv : s.BarInv := by
    refine hreach.invariant (I := fun _ s => s.BarInv) ?_ fun {_ _ _ _ _} hinv hguard hstep => ?_
    · exact ⟨List.forall_mem_nil _, List.nodup_nil, List.nodup_nil⟩
    · obtain ⟨hclicked, hapart⟩ := Bool.and_eq_true_iff.mp hguard
      exact (hinv.step hclicked hapart hstep).2
  exact ⟨hinv.onBar, fun e s' o hclicked hapart hstep => (hinv.step hclicked hapart hstep).1⟩

def isError : KibanaFilter String := ⟨"level", some "error", false, none⟩

def isNotError : KibanaFilter String := ⟨"level", some "error", true, none⟩

def searchingServer : List (KibanaEvent String × Int) := [(.pickServer "web", 0), (.connectSsh, 0)]

theorem filters_agree_disabled : ∃ h s, Reaches (step ValueText.one id id)
      (fun s e => (s.clicked e.1 && s.apart id e.1) = true) (opened ["web"]) h s ∧
        (s.filters = [isError] ∧ s.disabled = [isError]) ∧ (∀ f ∈ s.disabled, f ∈ s.filters) ∧
      ∀ e s' o, s.clicked e.1 = true → s.apart id e.1 = true →
        s.step ValueText.one id id e = some (s', o) → s.BarAgrees ValueText.one id e.1 s' := by
  obtain ⟨h, s, hreach, hbar⟩ := Reaches.exists_of_checkedEvents (step ValueText.one id id) (opened ["web"])
    (P := fun s => s.filters = [isError] ∧ s.disabled = [isError]) (fun s e => s.clicked e.1 && s.apart id e.1)
    (fun _ _ => id) (searchingServer ++ [(.filter (.add isError), 1), (.filter (.toggle isError), 2)])
    (by decide)
  exact ⟨h, s, hreach, hbar, filters_agree ValueText.one id id id ["web"] h s hreach⟩

/-- The other sense of a disabled filter takes its pill off the bar, and it is disabled still: when it is added
again, no search has it. -/
theorem added_not_in_effect : ∃ h s, Reaches (step ValueText.one id id) (fun s e => s.clicked e.1 = true)
      (opened ["web"]) h s ∧ ¬(∀ f ∈ s.disabled, f ∈ s.filters) ∧
    ∃ s' o, s.step ValueText.one id id (.filter (.add isError), 4) = some (s', o) ∧
      ¬ s.BarAgrees ValueText.one id (.filter (.add isError)) s' := by
  obtain ⟨h, s, hreach, ⟨hfilters, hdisabled⟩, hready⟩ := Reaches.exists_of_checkedEvents (step ValueText.one id id)
    (opened ["web"])
    (P := fun s => (s.filters = [isNotError] ∧ s.disabled = [isError]) ∧ s.ready = true) (fun s e => s.clicked e.1)
    (fun _ _ => id) (searchingServer ++ [(.filter (.add isError), 1), (.filter (.toggle isError), 2),
      (.filter (.add isNotError), 3)]) (by decide)
  refine ⟨h, s, hreach, fun hon => ?_, _, _, if_pos hready, fun hagrees => ?_⟩
  · rw [hfilters, hdisabled] at hon
    exact absurd (hon isError (List.mem_singleton_self _)) (by decide)
  · have heffect := hagrees.inEffect isError rfl
    have hsends : Sends ValueText.one (s.change (.add isError)) ((s.change (.add isError)).search ValueText.one 4) :=
      sends_search 4
    rw [enabled, hsends.disabled, KibanaPage.change, hdisabled] at heffect
    exact absurd (List.mem_singleton_self isError) (of_decide_eq_true (List.mem_filter.mp heffect).2)

end Portix.Kibana.KibanaPage
