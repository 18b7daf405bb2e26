import Portix.Kubernetes.Proofs.KubeClustersInvProofs
import Portix.Lib.Machine

/-!
# Changes where the item was read

A switch of the context is told to the tab that made it alone, once it is answered. So a change is made
where its item was read as long as a server's context is switched only from the one tab on it, with nothing
else under way.
-/

namespace Portix.Kubernetes

open Lib

namespace KubeClusters

variable {s s' : KubeClusters} {t i : Nat} {call : KubeCall}

theorem TaskOk.stage {stage : KubeStage} (h : s.TaskOk call)
    (hran : ∀ context server, stage = .ran context → (s.tabs call.tab).server = some server →
      context = s.contexts server) : s.TaskOk { call with stage := stage } := by
  unfold TaskOk at h ⊢
  cases htask : call.task with
  | list key =>
    rw [htask] at h
    exact ⟨h.1, fun context hstage _ _ => .inr fun server hserver => hran context server hstage hserver, h.2.2⟩
  | detail opened =>
    rw [htask] at h
    exact ⟨h.1, h.2.1, fun context hstage _ _ => .inr fun server hserver => hran context server hstage hserver⟩
  | edit kind row form => exact hran
  | apply kind row action closing => rwa [htask] at h
  | bulk row rest action => rwa [htask] at h
  | save origin form => rwa [htask] at h
  | switch context => trivial

theorem Sound.setStage {stage : KubeStage} (h : s.Sound) (hold : s.calls[i]? = some call)
    (hrunning : call.stage.over = false) (hswitched : call.switched = false) (hran : ∀ context, stage ≠ .ran context) :
    (s.setStage i call stage).Sound := by
  have hok := (h.calls call (List.mem_of_getElem? hold)).task hrunning
  exact h.setCall hold rfl rfl (by simp [hswitched]) fun _ => hok.stage fun context _ hstage =>
    absurd hstage (hran context)

theorem Sound.goOn {next : KubeRow} {rest : List KubeRow} {action : RowAction} (h : s.Sound)
    (hold : s.calls[i]? = some call) (hswitched : call.switched = false)
    (hacting : ∀ r ∈ next :: rest, s.Acting call.tab r.origin) : (s.goOn i call next rest action).Sound := by
  unfold KubeClusters.goOn
  split
  · exact h.setCall hold rfl rfl (by simp [hswitched]) fun _ => hacting
  · exact h.done hold hswitched

theorem Sound.fail (h : s.Sound) (hold : s.calls[i]? = some call) (hrunning : call.stage.over = false)
    (hswitched : call.switched = false) : (s.fail i call).Sound := by
  have hok := (h.calls call (List.mem_of_getElem? hold)).task hrunning
  have hdone := h.done hold hswitched
  unfold TaskOk at hok
  unfold KubeClusters.fail
  cases htask : call.task with
  | bulk row rest action =>
    rw [htask] at hok
    cases rest with
    | nil =>
      simp only
      split
      next hopen => exact hdone.load hopen
      next => exact hdone
    | cons next rest =>
      simp only
      split
      · exact h.goOn hold hswitched fun r hmem => hok r (List.mem_cons_of_mem _ hmem)
      · exact hdone
  | save origin form => exact h.setStage hold hrunning hswitched (by simp)
  | list key => exact hdone
  | detail opened => exact hdone
  | apply kind row action closing => exact hdone
  | edit kind row form => exact hdone
  | switch context => exact hdone

theorem Answered.done {context : String} (h : s.Sound) (hold : s.calls[i]? = some call)
    (hswitched : call.switched = false) (hfresh : s.Fresh call.tab call.generation context) :
    (s.setStage i call .done).Answered i call context := by
  obtain ⟨hlt, -⟩ := List.getElem?_eq_some_iff.mp hold
  have hle := (h.calls call (List.mem_of_getElem? hold)).generation
  refine ⟨?_, hle, (Keeps.done hold hswitched call.tab).fresh _ _ hle hfresh⟩
  simp [KubeClusters.setStage, KubeClusters.setCall, List.getElem?_set_self hlt]

variable {kind : KubeKind}

theorem PageOk.sync (tab : KubeTab) (h : s.PageOk t (tab.pages kind)) :
    s.PageOk t (tab.sync kind) ∧ ∀ row ∈ (tab.sync kind).detailRows, row ∈ (tab.pages kind).detailRows := by
  unfold KubeTab.sync
  simp only
  split
  · refine ⟨⟨h.items, by simp [ResourcePage.detailRows], fun key hkey => ?_, fun _ => rfl⟩,
      by simp [ResourcePage.detailRows]⟩
    obtain ⟨hle, hrows, -⟩ := h.loaded key hkey
    exact ⟨hle, hrows, by simp [ResourcePage.detailRows]⟩
  · exact ⟨h, fun row hrow => hrow⟩

theorem Sound.reload (h : s.Sound) (hold : s.calls[i]? = some call) : ((s.setStage i call .done).setTab call.tab
      { s.tabs call.tab with generation := (s.tabs call.tab).generation + 1 }.notify).Sound := by
  have hcall := h.calls call (List.mem_of_getElem? hold)
  let tab : KubeTab := { s.tabs call.tab with generation := (s.tabs call.tab).generation + 1 }
  let ended := s.setCall i { call with stage := .done }
  let s' := ended.setTab call.tab tab.notify
  have hself : s'.tabs call.tab = tab.notify := Function.update_self ..
  have hother : ∀ u, u ≠ call.tab → s'.tabs u = s.tabs u := fun u hu => Function.update_of_ne hu ..
  have hplaced : ∀ row, s.Placed row → s'.Placed row := by
    intro row hrow
    have hended : ended.Placed row := hrow.setCall hold rfl
    exact hended
  have hkeeps : ∀ u, Keeps s s' u := by
    intro u
    by_cases hu : u = call.tab
    · subst hu
      -- Nothing that the tab has was read in its new generation.
      refine ⟨fun server hserver => by rwa [hself], ?_, fun generation context hle _ _ hnow => ?_, hplaced⟩
      · rw [hself]
        exact Nat.le_succ _
      · rw [hself] at hnow
        have hnow' : generation = (s.tabs call.tab).generation + 1 := hnow
        omega
    · refine ⟨fun server hserver => by rwa [hother u hu], (hother u hu ▸ le_rfl), ?_, hplaced⟩
      intro generation context _ hfresh hopen hnow
      rw [hother u hu] at hnow ⊢
      rcases hfresh hopen hnow with hswitching | hcontext
      · have hended : ended.switching u = true :=
          switching_setCall hold rfl (fun htab => absurd htab.symm hu) hswitching
        exact .inl hended
      · exact .inr hcontext
  have hpages : ∀ u kind, s.PageOk u ((s'.tabs u).pages kind) ∧
      ∀ row ∈ ((s'.tabs u).pages kind).detailRows, row ∈ ((s.tabs u).pages kind).detailRows := by
    intro u kind
    by_cases hu : u = call.tab
    · subst hu
      rw [hself]
      exact PageOk.sync tab (h.pages call.tab kind)
    · rw [hother u hu]
      exact ⟨h.pages u kind, fun row hrow => hrow⟩
  refine Sound.frame (fun u hopen => ?_) (fun u _ => hkeeps u) (fun u kind => (hpages u kind).1.keeps (hkeeps u)) ?_
  · obtain ⟨server, hserver⟩ := Option.ne_none_iff_exists'.mp (h.tabs u hopen)
    have hserver' : (s'.tabs u).server = some server := (hkeeps u).server server hserver
    exact ne_of_eq_of_ne hserver' (by simp)
  · intro other hmem
    refine ⟨?_, fun _ _ _ => rfl, fun _ row hrow => .inl ((hpages _ _).2 row hrow)⟩
    rcases List.mem_or_eq_of_mem_set hmem with hmem | rfl
    · exact h.calls other hmem
    · exact ⟨hcall.server, hcall.generation, fun hrunning => nomatch hrunning⟩

theorem Sound.applied {closing : Option (KubeKind × KubeRow)} (h : s.Sound) (hopen : call.tab ∈ s.openTabs)
    (hold : s.calls[i]? = some { call with stage := .done }) : (s.applied i call closing).Sound := by
  have hloaded : (s.load call.tab call.page false).Sound := h.load hopen
  unfold KubeClusters.applied
  simp only
  split
  · refine hloaded.setCall (getElem?_load hold) ?_ ?_ ?_ fun hrunning => nomatch hrunning
    · rfl
    · rfl
    · simp [KubeCall.switched]
  · exact hloaded

theorem Sound.succeed {readDouble : String → String} {context output : String} (h : s.Sound)
    (hold : s.calls[i]? = some call) (hstage : call.stage = .ran context) :
    (s.succeed readDouble i call context output).Sound := by
  have hrunning : call.stage.over = false := by rw [hstage]; rfl
  have hcall := h.calls call (List.mem_of_getElem? hold)
  have hok := hcall.task hrunning
  unfold TaskOk at hok
  unfold KubeClusters.succeed
  have hswitched : (∀ context, call.task ≠ .switch context) → call.switched = false := by
    intro htask
    unfold KubeCall.switched
    split
    next hswitch _ => exact absurd hswitch (htask _)
    next => rfl
  cases htask : call.task with
  | list key =>
    rw [htask] at hok
    have hnot := hswitched (by simp [htask])
    have hanswer := Answered.done h hold hnot (hok.2.1 context hstage)
    exact (h.done hold hnot).listed hanswer hok.1 hok.2.2
  | detail opened =>
    rw [htask] at hok
    have hnot := hswitched (by simp [htask])
    have hanswer := Answered.done h hold hnot (hok.2.2 context hstage)
    exact (h.done hold hnot).detailed hanswer hok.1 ((Keeps.done hold hnot call.tab).placed _ hok.2.1)
  | apply kind row action closing =>
    have hdone := h.done hold (hswitched (by simp [htask]))
    obtain ⟨hlt, -⟩ := List.getElem?_eq_some_iff.mp hold
    simp only
    split
    next hopen => exact hdone.applied hopen (List.getElem?_set_self hlt)
    next => exact hdone
  | save origin form =>
    have hdone := h.done hold (hswitched (by simp [htask]))
    simp only
    split
    next hopen => exact hdone.load hopen
    next => exact hdone
  | bulk row rest action =>
    rw [htask] at hok
    have hnot := hswitched (by simp [htask])
    simp only
    split
    next hopen =>
      have hpage := h.pages call.tab call.page
      let page := (s.tabs call.tab).pages call.page
      have hticked : (s.setPage call.tab call.page
          { page with ticked := page.ticked.filter (· ≠ pickKey row) }).Sound :=
        h.setPage ⟨hpage.items, hpage.details, hpage.loaded, hpage.closed⟩ fun row hrow => .inl hrow
      cases rest with
      | nil => exact (hticked.done hold hnot).load hopen
      | cons next rest =>
        refine hticked.goOn hold hnot fun r hmem => ?_
        obtain ⟨hserver, hcontext⟩ := hok r (List.mem_cons_of_mem _ hmem)
        refine ⟨?_, hcontext⟩
        simpa [KubeClusters.setPage, KubeClusters.setTab, KubeTab.setPage] using hserver
    next => exact h.done hold hnot
  | edit kind row form =>
    rw [htask] at hok
    have hnot := hswitched (by simp [htask])
    simp only
    split
    next server hserver =>
      split
      · exact h.setCall hold rfl rfl (by simp [hnot]) fun _ => ⟨hserver, hok context server hstage hserver⟩
      · exact h.done hold hnot
    next => exact h.done hold hnot
  | switch switchedTo => exact h.reload hold

theorem Sound.setContext {server context : String} (h : s.Sound) (hswitching : s.switching t = true)
    (hopen : ∀ u ∈ s.openTabs, u = t ∨ (s.tabs u).server ≠ some server)
    (hacts : ∀ call ∈ s.calls, call.acts = true → (s.tabs call.tab).server ≠ some server) :
    { s with contexts := Function.update s.contexts server context }.Sound := by
  have hkeeps : ∀ u, Keeps s { s with contexts := Function.update s.contexts server context } u := by
    intro u
    refine ⟨fun _ hserver => hserver, le_rfl, fun generation old _ hfresh hu hnow => ?_, fun _ hplaced => hplaced⟩
    rcases hopen u hu with rfl | hother
    · exact .inl hswitching
    · rcases hfresh hu hnow with hswitch | hcontext
      · exact .inl hswitch
      · refine .inr fun server' hserver' => ?_
        have hne : server' ≠ server := fun hsame => hother (hsame ▸ hserver')
        exact (hcontext server' hserver').trans (Function.update_of_ne hne ..).symm
  refine Sound.frame h.tabs (fun u _ => hkeeps u) (fun u kind => (h.pages u kind).keeps (hkeeps u)) ?_
  intro call hmem
  refine ⟨h.calls call hmem, fun hact server' hserver' => ?_, fun _ _ hrow => .inl hrow⟩
  have hne : server' ≠ server := fun hsame => hacts call hmem hact (hsame ▸ hserver')
  exact Function.update_of_ne hne ..

variable {server : String}

theorem TaskOk.right {origin : KubeOrigin} (h : s.TaskOk call)
    (hserver : (s.tabs call.tab).server = some server) (horigin : call.task.origin = some origin) :
    server = origin.server ∧ s.contexts server = origin.context := by
  have hacting : s.Acting call.tab origin → server = origin.server ∧ s.contexts server = origin.context := by
    rintro ⟨hat, hcontext⟩
    cases hserver.symm.trans hat
    exact ⟨rfl, hcontext.symm⟩
  unfold TaskOk at h
  cases htask : call.task with
  | apply kind row action closing =>
    rw [htask] at h horigin
    cases horigin
    exact hacting h
  | bulk row rest action =>
    rw [htask] at h horigin
    cases horigin
    exact hacting (h row (by simp))
  | save kept form =>
    rw [htask] at h horigin
    cases horigin
    exact hacting h
  | list key => simp [htask, KubeTask.origin] at horigin
  | detail opened => simp [htask, KubeTask.origin] at horigin
  | edit kind row form => simp [htask, KubeTask.origin] at horigin
  | switch context => simp [htask, KubeTask.origin] at horigin

theorem Sound.runCall (h : s.Sound) (hold : s.calls[i]? = some call)
    (hserver : (s.tabs call.tab).server = some server) (hstage : call.stage = .sent)
    (hcareful : s.careful (.run i) = true) :
    (s.runCall i call server).1.Sound ∧ ∀ change ∈ (s.runCall i call server).2, change.Right := by
  have hok := (h.calls call (List.mem_of_getElem? hold)).task (by rw [hstage]; rfl)
  have hnot : call.switched = false := by
    unfold KubeCall.switched
    split
    next hran => simp [hstage] at hran
    next => rfl
  have hran : (s.setStage i call (.ran (s.contexts server))).Sound := by
    refine h.setCall hold rfl rfl (by simp [hnot]) fun _ => hok.stage fun context server' hcontext hserver' => ?_
    cases hserver.symm.trans hserver'
    exact (KubeStage.ran.inj hcontext).symm
  unfold KubeClusters.runCall
  simp only
  split
  next context htask =>
    refine ⟨?_, by simp⟩
    simp only [careful, hold, Option.all_some, htask, hserver, Bool.or_eq_true, decide_eq_true_eq] at hcareful
    rcases hcareful with hsame | halone
    · rw [← hsame, Function.update_eq_self]
      exact hran
    · simp only [alone, Bool.and_eq_true, List.all_eq_true, Bool.or_eq_true, decide_eq_true_eq,
        Bool.not_eq_true'] at halone
      obtain ⟨hlt, -⟩ := List.getElem?_eq_some_iff.mp hold
      refine hran.setContext (t := call.tab) ?_ halone.1 fun other hmem hacts => ?_
      · refine List.any_eq_true.mpr ⟨{ call with stage := .ran (s.contexts server) }, List.mem_set hlt _, ?_⟩
        simp [KubeCall.switched, htask]
      · rcases List.mem_or_eq_of_mem_set hmem with hmem | rfl
        · rcases halone.2 other hmem with hidle | hother
          · rw [hidle] at hacts
            cases hacts
          · exact hother
        · simp [KubeCall.acts, htask, KubeTask.changes] at hacts
  next =>
    refine ⟨hran, fun change hmem => ?_⟩
    rw [Option.mem_toList] at hmem
    obtain ⟨origin, horigin, rfl⟩ := Option.map_eq_some_iff.mp hmem
    exact hok.right hserver horigin

/-- An item of a page that is up to date was read in the present generation of its tab, and in the context of
now. -/
theorem Sound.upToDate {row : KubeRow} (h : s.Sound) (hopen : t ∈ s.openTabs)
    (hdate : s.upToDate t kind = true)
    (hrow : row ∈ ((s.tabs t).pages kind).items ∨ row ∈ ((s.tabs t).pages kind).detailRows) :
    s.RowOk t row ∧ row.origin.generation = (s.tabs t).generation ∧ s.Acting t row.origin := by
  have hpage := h.pages t kind
  simp only [KubeClusters.upToDate, Bool.and_eq_true, decide_eq_true_eq, Bool.not_eq_true'] at hdate
  obtain ⟨hloaded, hswitching⟩ := hdate
  obtain ⟨key, hkey, hgeneration⟩ := Option.map_eq_some_iff.mp hloaded
  obtain ⟨-, hitems, hdetails⟩ := hpage.loaded key hkey
  have hok : s.RowOk t row := hrow.elim (hpage.items row) (hpage.details row)
  have hnow : row.origin.generation = (s.tabs t).generation := by
    rcases hrow with hitem | hdetail
    · exact (hitems row hitem).trans hgeneration
    · have hle := hdetails row hdetail
      have hge := hok.generation
      omega
  refine ⟨hok, hnow, hok.server, ?_⟩
  rcases hok.fresh hopen hnow with hswitch | hcontext
  · rw [hswitch] at hswitching
    cases hswitching
  · exact hcontext _ hok.server

theorem Sound.openTab (h : s.Sound) (hnone : (s.tabs t).server = none) :
    ({ s with openTabs := s.openTabs ++ [t] }.setTab t { server := some server, generation := 1 }).Sound := by
  let s' := { s with openTabs := s.openTabs ++ [t] }.setTab t { server := some server, generation := 1 }
  have hself : s'.tabs t = { server := some server, generation := 1 } := Function.update_self ..
  have hother : ∀ u, u ≠ t → s'.tabs u = s.tabs u := fun u hu => Function.update_of_ne hu ..
  have hkeeps : ∀ u, u ≠ t → Keeps s s' u := by
    intro u hu
    refine ⟨fun server' hserver => by rwa [hother u hu], (hother u hu ▸ le_rfl), ?_, fun _ hplaced => hplaced⟩
    intro generation context _ hfresh hopen hnow
    rw [hother u hu] at hnow ⊢
    have hopen' : u ∈ s.openTabs := by
      rcases List.mem_append.mp hopen with hopen | hnew
      · exact hopen
      · exact absurd (List.mem_singleton.mp hnew) hu
    exact hfresh hopen' hnow
  refine Sound.frame (s := s) (fun u hopen => ?_) (fun u hserver => hkeeps u ?_) (fun u kind => ?_) fun call hmem => ?_
  · change (s'.tabs u).server ≠ none
    by_cases hu : u = t
    · rw [hu, hself]
      simp
    · rw [hother u hu]
      rcases List.mem_append.mp hopen with hopen | hnew
      · exact h.tabs u hopen
      · exact absurd (List.mem_singleton.mp hnew) hu
  · rintro rfl
    exact hserver hnone
  · change s'.PageOk u ((s'.tabs u).pages kind)
    by_cases hu : u = t
    · rw [hu, hself]
      exact ⟨by simp, by simp [ResourcePage.detailRows], by simp, by simp⟩
    · rw [hother u hu]
      exact (h.pages u kind).keeps (hkeeps u hu)
  · have hcall := h.calls call hmem
    have hne : call.tab ≠ t := fun hsame => hcall.server (hsame ▸ hnone)
    refine ⟨hcall, fun _ _ _ => rfl, fun _ row hrow => .inl ?_⟩
    have hpages : (s'.tabs call.tab).pages = (s.tabs call.tab).pages := by rw [hother _ hne]
    rwa [← hpages]

theorem Sound.closeTab (h : s.Sound) : { s with openTabs := s.openTabs.filter (· ≠ t) }.Sound := by
  have hkeeps : ∀ u, Keeps s { s with openTabs := s.openTabs.filter (· ≠ t) } u := fun u =>
    ⟨fun _ hserver => hserver, le_rfl, fun _ _ _ hfresh hopen hnow => hfresh (List.mem_of_mem_filter hopen) hnow,
      fun _ hplaced => hplaced⟩
  exact Sound.frame (fun u hopen => h.tabs u (List.mem_of_mem_filter hopen)) (fun u _ => hkeeps u)
    (fun u kind => (h.pages u kind).keeps (hkeeps u))
    fun call hmem => ⟨h.calls call hmem, fun _ _ _ => rfl, fun _ _ hrow => .inl hrow⟩

theorem Sound.show {visible : Bool} (h : s.Sound) :
    let tab := (s.tabs t).setPage kind { (s.tabs t).pages kind with visible := visible }
    (s.setTab t (tab.setPage kind (tab.sync kind))).Sound := by
  have hpage := h.pages t kind
  let shown : ResourcePage := { (s.tabs t).pages kind with visible := visible }
  let tab := (s.tabs t).setPage kind shown
  have hself : tab.pages kind = shown := Function.update_self ..
  have hshown : s.PageOk t (tab.pages kind) := by
    rw [hself]
    exact ⟨hpage.items, hpage.details, hpage.loaded, hpage.closed⟩
  have hsync := hshown.sync tab
  have hsame : (tab.setPage kind (tab.sync kind)).pages kind = tab.sync kind := Function.update_self ..
  have hothers : ∀ other, other ≠ kind → (tab.setPage kind (tab.sync kind)).pages other = (s.tabs t).pages other := by
    intro other hother
    simp [tab, KubeTab.setPage, hother]
  change (s.setTab t (tab.setPage kind (tab.sync kind))).Sound
  refine h.setTab rfl rfl (fun other => ?_) fun other row hrow => .inl ?_
  · by_cases hother : other = kind
    · rw [hother, hsame]
      exact hsync.1
    · rw [hothers other hother]
      exact h.pages t other
  · by_cases hother : other = kind
    · rw [hother, hsame] at hrow
      have hrow' := hsync.2 row hrow
      rw [hself] at hrow'
      rw [hother]
      exact hrow'
    · rwa [hothers other hother] at hrow

theorem Sound.pick {picked : List String} (h : s.Sound) :
    (s.setTab t { s.tabs t with picked := picked }.notify).Sound := by
  have hsync := fun kind => PageOk.sync { s.tabs t with picked := picked } (h.pages t kind)
  exact h.setTab rfl rfl (fun kind => (hsync kind).1) fun kind row hrow => .inl ((hsync kind).2 row hrow)

theorem Sound.frameDue {due : Nat} (h : s.Sound) :
    (s.setPage t kind { (s.tabs t).pages kind with due := due }).Sound := by
  have hpage := h.pages t kind
  exact h.setPage ⟨hpage.items, hpage.details, hpage.loaded, hpage.closed⟩ fun row hrow => .inl hrow

theorem Sound.tick {ticked : List String} (h : s.Sound) :
    (s.setPage t kind { (s.tabs t).pages kind with ticked := ticked }).Sound := by
  have hpage := h.pages t kind
  exact h.setPage ⟨hpage.items, hpage.details, hpage.loaded, hpage.closed⟩ fun row hrow => .inl hrow

theorem Sound.openDetail {shown : KubeKind × KubeRow} (h : s.Sound) (hopen : t ∈ s.openTabs)
    (hdate : s.upToDate t kind = true)
    (hrow : shown.2 ∈ ((s.tabs t).pages kind).items ∨ shown.2 ∈ ((s.tabs t).pages kind).detailRows) :
    let page := (s.tabs t).pages kind
    (s.setPage t kind { page with trail := shown :: page.trail, detail := none }).Sound := by
  have hpage := h.pages t kind
  obtain ⟨hok, hnow, -⟩ := h.upToDate hopen hdate hrow
  refine h.setPage ⟨hpage.items, fun row hmem => ?_, fun key hkey => ?_, by simp⟩ fun row hmem => ?_
  · rcases mem_detailRows_open hmem with rfl | hold
    · exact hok
    · exact hpage.details row hold
  · obtain ⟨hle, hitems, hdetails⟩ := hpage.loaded key hkey
    refine ⟨hle, hitems, fun row hmem => ?_⟩
    rcases mem_detailRows_open hmem with rfl | hold
    · exact hle.trans_eq hnow.symm
    · exact hdetails row hold
  · rcases mem_detailRows_open hmem with rfl | hold
    · refine .inr fun call hcall htab _ _ => ?_
      have hle := (h.calls call hcall).generation
      rw [htab, ← hnow] at hle
      exact hle
    · exact .inl hold

theorem Sound.closeDetail (h : s.Sound) :
    let page := (s.tabs t).pages kind
    (s.setPage t kind { page with trail := page.trail.tail, detail := none }).Sound := by
  have hpage := h.pages t kind
  refine h.setPage ⟨hpage.items, fun row hmem => hpage.details row (mem_detailRows_close hmem), fun key hkey => ?_,
    fun _ => rfl⟩
    fun row hmem => .inl (mem_detailRows_close hmem)
  obtain ⟨hle, hitems, hdetails⟩ := hpage.loaded key hkey
  exact ⟨hle, hitems, fun row hmem => hdetails row (mem_detailRows_close hmem)⟩

theorem Sound.bulk {row : KubeRow} {rest : List KubeRow} {action : RowAction} (h : s.Sound)
    (hopen : t ∈ s.openTabs) (hdate : s.upToDate t kind = true)
    (hpicked : ((s.tabs t).pages kind).pickedItems = row :: rest) :
    (s.begin t kind false (.bulk row rest action) .asking).Sound := by
  refine h.begin (h.tabs t hopen) fun r hmem => ?_
  rw [← hpicked] at hmem
  exact (h.upToDate hopen hdate (.inl (List.mem_of_mem_filter hmem))).2.2

section Steps

variable {readDouble : String → String} {changes : List KubeChange}

theorem step_applyPicked {action : RowAction}
    (hstep : step readDouble s (.applyPicked t kind action) = some (s', changes)) :
    ∃ row rest, t ∈ s.openTabs ∧ ((s.tabs t).pages kind).pickedItems = row :: rest ∧
      s.begin t kind false (.bulk row rest action) .asking = s' ∧ [] = changes := by
  obtain ⟨hopen, hstep⟩ := Option.ite_none_right_eq_some.mp hstep
  split at hstep
  · cases hstep
  next row rest hpicked => exact ⟨row, rest, hopen.1, hpicked, some_mk_inj hstep⟩

theorem step_run (hstep : step readDouble s (.run i) = some (s', changes)) : ∃ call server, s.calls[i]? = some call ∧
    call.stage = .sent ∧ (s.tabs call.tab).server = some server ∧ s.runCall i call server = (s', changes) := by
  obtain ⟨call, hold, hstep⟩ := Option.bind_eq_some_iff.mp hstep
  obtain ⟨hsent, hstep⟩ := Option.ite_none_right_eq_some.mp hstep
  obtain ⟨server, hserver, heq⟩ := Option.map_eq_some_iff.mp hstep
  exact ⟨call, server, hold, hsent, hserver, heq⟩

/-- An answer is taken as the output of the call, or it is an error. -/
theorem step_answer {result : Except String String}
    (hstep : step readDouble s (.answer i result) = some (s', changes)) :
    ∃ call, s.calls[i]? = some call ∧
      ((∃ context output, call.stage = .ran context ∧ s.succeed readDouble i call context output = s' ∧ [] = changes) ∨
        (call.stage.over = false ∧ ((∃ error, result = .error error) ∧ [] = changes) ∧
          (if call.quiet then s.fail i call else s.setStage i call .prompting) = s')) := by
  obtain ⟨call, hold, hstep⟩ := Option.bind_eq_some_iff.mp hstep
  refine ⟨call, hold, ?_⟩
  generalize hstage : call.stage = stage at hstep ⊢
  split at hstep
  next context output _ => exact .inl ⟨context, output, rfl, some_mk_inj hstep⟩
  next context error _ =>
    cases hstep
    exact .inr ⟨rfl, ⟨⟨error, rfl⟩, rfl⟩, rfl⟩
  next error _ =>
    cases hstep
    exact .inr ⟨rfl, ⟨⟨error, rfl⟩, rfl⟩, rfl⟩
  next => cases hstep

theorem step_close (hstep : step readDouble s (.close i) = some (s', changes)) :
    ∃ call reload k row action entry, s.calls[i]? = some call ∧ call.stage = .reloading reload ∧
      call.task = .apply k row action (some entry) ∧ [] = changes ∧
      (if call.tab ∈ s.openTabs ∧ ((s.tabs call.tab).pages call.page).trail ≠ [] then
        (s.setStage i call .done).closeDetail call.tab call.page else s.setStage i call .done) = s' := by
  obtain ⟨call, hold, hstep⟩ := Option.bind_eq_some_iff.mp hstep
  split at hstep
  next reload k row action entry hstage htask =>
    obtain ⟨-, hstate, hchanges⟩ := ite_some_mk_inj hstep
    exact ⟨call, reload, k, row, action, entry, hold, hstage, htask, hchanges, hstate⟩
  next => cases hstep

end Steps

/-- A careful step leads from a sound state to a sound one, and its changes are made where their items were
read. -/
theorem Sound.step {readDouble : String → String} {event : KubeEvent} {changes : List KubeChange} (h : s.Sound)
    (hcareful : s.careful event = true) (hstep : step readDouble s event = some (s', changes)) :
    s'.Sound ∧ ∀ change ∈ changes, change.Right := by
  cases event with
  | openTab t server =>
    obtain ⟨hnone, rfl, rfl⟩ := ite_some_mk_inj hstep
    exact ⟨h.openTab hnone, by simp⟩
  | closeTab t =>
    cases hstep
    exact ⟨h.closeTab, by simp⟩
  | «show» t kind visible =>
    obtain ⟨-, rfl, rfl⟩ := ite_some_mk_inj hstep
    exact ⟨h.show, by simp⟩
  | frame t kind =>
    obtain ⟨hopen, rfl, rfl⟩ := ite_some_mk_inj hstep
    refine ⟨?_, by simp⟩
    split
    · exact h.frameDue.load hopen.1
    · exact h.frameDue
  | timer t kind =>
    obtain ⟨hopen, rfl, rfl⟩ := ite_some_mk_inj hstep
    exact ⟨h.load hopen.1, by simp⟩
  | refresh t kind =>
    obtain ⟨hopen, rfl, rfl⟩ := ite_some_mk_inj hstep
    exact ⟨h.load hopen.1, by simp⟩
  | toggleNamespace t value =>
    obtain ⟨-, rfl, rfl⟩ := ite_some_mk_inj hstep
    exact ⟨h.pick, by simp⟩
  | setNamespaces t value =>
    obtain ⟨-, rfl, rfl⟩ := ite_some_mk_inj hstep
    exact ⟨h.pick, by simp⟩
  | tick t kind ticked =>
    cases hstep
    exact ⟨h.tick, by simp⟩
  | openDetail t kind place =>
    simp only [KubeClusters.step, Option.map_eq_some_iff, Prod.mk.injEq] at hstep
    obtain ⟨shown, hrow, rfl, rfl⟩ := hstep
    obtain ⟨hopen, hshown⟩ := rowAt_eq_some hrow
    exact ⟨(h.openDetail hopen hcareful hshown).load hopen, by simp⟩
  | closeDetail t kind =>
    obtain ⟨hopen, rfl, rfl⟩ := ite_some_mk_inj hstep
    exact ⟨h.closeDetail.load hopen.1, by simp⟩
  | act t kind place action =>
    simp only [KubeClusters.step, Option.map_eq_some_iff, Prod.mk.injEq] at hstep
    obtain ⟨shown, hrow, rfl, rfl⟩ := hstep
    obtain ⟨hopen, hshown⟩ := rowAt_eq_some hrow
    exact ⟨h.begin (h.tabs t hopen) (h.upToDate hopen hcareful hshown).2.2, by simp⟩
  | edit t kind place form =>
    simp only [KubeClusters.step, Option.map_eq_some_iff, Prod.mk.injEq] at hstep
    obtain ⟨shown, hrow, rfl, rfl⟩ := hstep
    refine ⟨h.begin (h.tabs t (rowAt_eq_some hrow).1) ?_, by simp⟩
    rintro context server ⟨⟩
  | applyPicked t kind action =>
    obtain ⟨row, rest, hopen, hpicked, rfl, rfl⟩ := step_applyPicked hstep
    exact ⟨h.bulk hopen hcareful hpicked, by simp⟩
  | dialog i confirmed =>
    obtain ⟨call, hold, ⟨hasking, -⟩, rfl, rfl⟩ := bind_ite_some_mk_inj hstep
    have hnot : call.switched = false := by simp [KubeCall.switched, hasking]
    exact ⟨h.setStage hold (by rw [hasking]; rfl) hnot (by cases confirmed <;> simp), by simp⟩
  | use t context =>
    obtain ⟨hopen, rfl, rfl⟩ := ite_some_mk_inj hstep
    exact ⟨h.begin (h.tabs t hopen) trivial, by simp⟩
  | run i =>
    obtain ⟨call, server, hold, hsent, hserver, heq⟩ := step_run hstep
    have hran := h.runCall hold hserver hsent hcareful
    rwa [heq] at hran
  | answer i result =>
    obtain ⟨call, hold, ⟨context, output, hran, rfl, rfl⟩ | ⟨hrunning, ⟨⟨error, rfl⟩, rfl⟩, rfl⟩⟩ := step_answer hstep
    · exact ⟨h.succeed hold hran, by simp⟩
    · simp only [careful, hold, Option.all_some, Bool.not_eq_true'] at hcareful
      refine ⟨?_, by simp⟩
      split
      · exact h.fail hold hrunning hcareful
      · exact h.setStage hold hrunning hcareful (by simp)
  | resolve i again =>
    obtain ⟨call, hold, hprompting, rfl, rfl⟩ := bind_ite_some_mk_inj hstep
    have hnot : call.switched = false := by simp [KubeCall.switched, hprompting]
    refine ⟨?_, by simp⟩
    split
    · exact h.setStage hold (by rw [hprompting]; rfl) hnot (by simp)
    · exact h.fail hold (by rw [hprompting]; rfl) hnot
  | close i =>
    obtain ⟨call, reload, k, row, action, entry, hold, hreloading, htask, rfl, rfl⟩ := step_close hstep
    have hdone := h.done hold (by simp [KubeCall.switched, hreloading])
    refine ⟨?_, by simp⟩
    split
    next hopen => exact hdone.closeDetail.load hopen.1
    next => exact hdone

theorem Sound.start (contexts : String → String) : Sound { contexts := contexts } where
  tabs := by simp
  pages := fun _ _ => ⟨by simp, by simp [ResourcePage.detailRows], by simp, by simp⟩
  calls := by simp

/-- **Actions hit where their rows came from, in careful runs.** -/
theorem changes_right (readDouble : String → String) (contexts : String → String) {changes : List KubeChange}
    {s : KubeClusters}
    (hrun : Reaches (step readDouble) (fun s event => s.careful event = true) { contexts := contexts } changes s) :
    ∀ change ∈ changes, change.Right := by
  refine (hrun.invariant (I := fun changes s => s.Sound ∧ ∀ change ∈ changes, change.Right)
    ⟨Sound.start contexts, by simp⟩ ?_).2
  rintro h s event s' o ⟨hsound, hright⟩ hcareful hstep
  obtain ⟨hsound', hnew⟩ := hsound.step hcareful hstep
  exact ⟨hsound', fun change hmem => (List.mem_append.mp hmem).elim (hright change) (hnew change)⟩

/-- The first pod that call `i` lists is deleted by call `j`: it is asked for, confirmed and run. -/
def deletePod (t i j : Nat) : List KubeEvent :=
  [.act t { type := "pods" } (i, 0) .delete, .dialog j true, .run j]

def listPods (t i : Nat) : List KubeEvent :=
  [.show t { type := "pods" } true, .frame t { type := "pods" }, .run i,
    .answer i (.ok "\x7b\"items\":[\x7b\"metadata\":\x7b\"name\":\"web\",\"namespace\":\"shop\"\x7d\x7d]\x7d")]

def switchContext (t i : Nat) (context : String) : List KubeEvent := [.use t context, .run i, .answer i (.ok "")]

/-- A tab that switches its server to another context, and then lists and deletes a pod, deletes it there. -/
theorem changes_right_of_switch : ∃ changes s,
    Reaches (step id) (fun s event => s.careful event = true) { contexts := fun _ => "production" } changes s ∧
      changes.map KubeChange.context = ["staging"] ∧ ∀ change ∈ changes, change.Right := by
  obtain ⟨changes, s, hrun, hcontexts⟩ := Reaches.exists_history (step id)
    (G := fun s event => s.careful event = true) { contexts := fun _ => "production" }
    (P := fun changes _ => changes.map KubeChange.context = ["staging"]) careful (fun _ _ h => h)
    (.openTab 0 "jump" :: switchContext 0 0 "staging" ++ listPods 0 1 ++ deletePod 0 1 2) (by decide +kernel)
  exact ⟨changes, s, hrun, hcontexts, changes_right id _ hrun⟩

/-- Two tabs on one server: one of them lists the pods, the other switches the context, and a pod of the first
is deleted in the other's context. -/
theorem changes_wrong : ∃ changes s,
    Reaches (step id) (fun _ _ => True) { contexts := fun _ => "production" } changes s ∧
      changes = [⟨"jump", "staging", "kubectl delete pods 'web' -n 'shop' --wait=false", ⟨"jump", "production", 1⟩⟩] ∧
      ∃ change ∈ changes, ¬ change.Right := by
  obtain ⟨changes, s, hrun, rfl⟩ := Reaches.exists_history (step id) (G := fun _ _ => True)
    { contexts := fun _ => "production" }
    (P := fun changes _ => changes =
      [⟨"jump", "staging", "kubectl delete pods 'web' -n 'shop' --wait=false", ⟨"jump", "production", 1⟩⟩])
    (fun _ _ => true) (fun _ _ _ => trivial)
    (.openTab 0 "jump" :: .openTab 1 "jump" :: listPods 1 0 ++ switchContext 0 1 "staging" ++ deletePod 1 0 2)
    (by decide +kernel)
  exact ⟨_, s, hrun, rfl, by decide⟩

end KubeClusters

end Portix.Kubernetes
