import Portix.Kubernetes.KubeClusters

/-!
# What cluster tabs know of their items

Each item carries the generation of its tab in which it was read, and what was read in the present generation
was read in the context of now, unless a switch is in between.
-/

namespace Portix.Kubernetes

open Lib

/-- The change is made on the server, and in the context, from which its item was read. -/
def KubeChange.Right (change : KubeChange) : Prop :=
  change.server = change.origin.server ∧ change.context = change.origin.context

instance : DecidablePred KubeChange.Right := fun change =>
  inferInstanceAs (Decidable (change.server = change.origin.server ∧ change.context = change.origin.context))

def ResourcePage.detailRows (page : ResourcePage) : List KubeRow :=
  page.trail.map Prod.snd ++ match page.detail with
    | some detail => detail.row :: detail.pods ++ detail.services
    | none => []

def KubeTask.changes : KubeTask → Bool
  | .apply _ _ _ _ | .bulk _ _ _ | .edit _ _ _ | .save _ _ => true
  | .list _ | .detail _ | .switch _ => false

def KubeStage.over : KubeStage → Bool
  | .reloading _ | .done => true
  | .asking | .sent | .ran _ | .prompting => false

def KubeCall.acts (call : KubeCall) : Bool := !call.stage.over && call.task.changes

def KubeCall.lists (call : KubeCall) : Bool :=
  !call.stage.over && match call.task with
    | .list _ => true
    | .apply _ _ _ _ | .bulk _ _ _ | .edit _ _ _ | .save _ _ | .detail _ | .switch _ => false

def KubeCall.switched (call : KubeCall) : Bool :=
  match call.task, call.stage with
  | .switch _, .ran _ => true
  | _, _ => false

namespace KubeClusters

def switching (s : KubeClusters) (t : Nat) : Bool := s.calls.any fun call => decide (call.tab = t) && call.switched

/-- The page was loaded in the present generation of its tab, and no switch is in between. -/
def upToDate (s : KubeClusters) (t : Nat) (kind : KubeKind) : Bool :=
  decide (((s.tabs t).pages kind).loadedFor.map PageKey.generation = some (s.tabs t).generation) && !s.switching t

def alone (s : KubeClusters) (t : Nat) (server : String) : Bool :=
  (s.openTabs.all fun u => decide (u = t) || decide ((s.tabs u).server ≠ some server)) &&
    s.calls.all fun call => !call.acts || decide ((s.tabs call.tab).server ≠ some server)

def careful (s : KubeClusters) : KubeEvent → Bool
  | .run i => (s.calls[i]?).all fun call => match call.task, (s.tabs call.tab).server with
    | .switch context, some server => decide (s.contexts server = context) || s.alone call.tab server
    | _, _ => true
  | .answer i (.error _) => (s.calls[i]?).all fun call => !call.switched
  | .openDetail t kind _ | .act t kind _ _ | .applyPicked t kind _ => s.upToDate t kind
  | .openTab _ _ | .closeTab _ | .show _ _ _ | .frame _ _ | .timer _ _ | .refresh _ _ | .toggleNamespace _ _
  | .setNamespaces _ _ | .tick _ _ _ | .closeDetail _ _ | .edit _ _ _ _ | .dialog _ _ | .use _ _
  | .answer _ (.ok _) | .resolve _ _ | .close _ => true

/-- Something that an open tab has read in its present generation was read in the context of now, if no
switch is in between. -/
def Fresh (s : KubeClusters) (t generation : Nat) (context : String) : Prop :=
  t ∈ s.openTabs → generation = (s.tabs t).generation →
    s.switching t = true ∨ ∀ server, (s.tabs t).server = some server → context = s.contexts server

/-- The place of an item tells the generation in which it was read. -/
def Placed (s : KubeClusters) (row : KubeRow) : Prop :=
  (s.calls[row.place.1]?).map KubeCall.generation = some row.origin.generation

/-- What holds of an item that a tab holds. -/
structure RowOk (s : KubeClusters) (t : Nat) (row : KubeRow) : Prop where
  server : (s.tabs t).server = some row.origin.server
  generation : row.origin.generation ≤ (s.tabs t).generation
  fresh : s.Fresh t row.origin.generation row.origin.context
  placed : s.Placed row

/-- What holds of a page. -/
structure PageOk (s : KubeClusters) (t : Nat) (page : ResourcePage) : Prop where
  items : ∀ row ∈ page.items, s.RowOk t row
  details : ∀ row ∈ page.detailRows, s.RowOk t row
  loaded : ∀ key, page.loadedFor = some key → key.generation ≤ (s.tabs t).generation ∧
    (∀ row ∈ page.items, row.origin.generation = key.generation) ∧
    ∀ row ∈ page.detailRows, key.generation ≤ row.origin.generation
  closed : page.trail = [] → page.detail = none

/-- The item of a change under way was read where it will be changed. -/
def Acting (s : KubeClusters) (t : Nat) (origin : KubeOrigin) : Prop :=
  (s.tabs t).server = some origin.server ∧ origin.context = s.contexts origin.server

/-- What holds of a task that waits for something. -/
def TaskOk (s : KubeClusters) (call : KubeCall) : Prop :=
  match call.task with
  | .list key => key.generation = call.generation ∧
    (∀ context, call.stage = .ran context → s.Fresh call.tab call.generation context) ∧
    ∀ row ∈ ((s.tabs call.tab).pages call.page).detailRows, call.generation ≤ row.origin.generation
  | .detail opened => opened.2.origin.generation ≤ call.generation ∧ s.Placed opened.2 ∧
    ∀ context, call.stage = .ran context → s.Fresh call.tab call.generation context
  | .apply _ row _ _ => s.Acting call.tab row.origin
  | .bulk row rest _ => ∀ r ∈ row :: rest, s.Acting call.tab r.origin
  | .edit _ _ _ => ∀ context server, call.stage = .ran context → (s.tabs call.tab).server = some server →
    context = s.contexts server
  | .save origin _ => s.Acting call.tab origin
  | .switch _ => True

/-- What holds of a call. -/
structure CallOk (s : KubeClusters) (call : KubeCall) : Prop where
  server : (s.tabs call.tab).server ≠ none
  generation : call.generation ≤ (s.tabs call.tab).generation
  task : call.stage.over = false → s.TaskOk call

/-- What holds of every state that careful steps lead to. -/
structure Sound (s : KubeClusters) : Prop where
  tabs : ∀ t ∈ s.openTabs, (s.tabs t).server ≠ none
  pages : ∀ t kind, s.PageOk t ((s.tabs t).pages kind)
  calls : ∀ call ∈ s.calls, s.CallOk call

/-- What is known of a tab stays known. -/
structure Keeps (s s' : KubeClusters) (t : Nat) : Prop where
  server : ∀ server, (s.tabs t).server = some server → (s'.tabs t).server = some server
  generation : (s.tabs t).generation ≤ (s'.tabs t).generation
  fresh : ∀ generation context, generation ≤ (s.tabs t).generation → s.Fresh t generation context →
    s'.Fresh t generation context
  placed : ∀ row, s.Placed row → s'.Placed row

variable {s s' : KubeClusters} {t i : Nat} {call : KubeCall} {row : KubeRow}

theorem RowOk.keeps (h : s.RowOk t row) (hkeeps : Keeps s s' t) : s'.RowOk t row where
  server := hkeeps.server _ h.server
  generation := h.generation.trans hkeeps.generation
  fresh := hkeeps.fresh _ _ h.generation h.fresh
  placed := hkeeps.placed _ h.placed

variable {page : ResourcePage}

theorem PageOk.keeps (h : s.PageOk t page) (hkeeps : Keeps s s' t) : s'.PageOk t page where
  items := fun row hmem => (h.items row hmem).keeps hkeeps
  details := fun row hmem => (h.details row hmem).keeps hkeeps
  loaded := by
    intro key hkey
    obtain ⟨hle, hrows⟩ := h.loaded key hkey
    exact ⟨hle.trans hkeeps.generation, hrows⟩
  closed := h.closed

theorem CallOk.keeps (h : s.CallOk call) (hkeeps : Keeps s s' call.tab)
    (hcontext : call.acts = true → ∀ server, (s.tabs call.tab).server = some server →
      s'.contexts server = s.contexts server)
    (hpage : call.lists = true → ∀ row ∈ ((s'.tabs call.tab).pages call.page).detailRows,
      row ∈ ((s.tabs call.tab).pages call.page).detailRows ∨ call.generation ≤ row.origin.generation) :
    s'.CallOk call := by
  obtain ⟨server, hserver⟩ := Option.ne_none_iff_exists'.mp h.server
  have hserver' := hkeeps.server server hserver
  refine ⟨by simp [hserver'], h.generation.trans hkeeps.generation, fun hrunning => ?_⟩
  have hok := h.task hrunning
  have hle := h.generation
  have hacts : call.task.changes = true → s'.contexts server = s.contexts server :=
    fun hchanges => hcontext (by simp [KubeCall.acts, hrunning, hchanges]) server hserver
  have hacting : ∀ origin, call.task.changes = true → s.Acting call.tab origin → s'.Acting call.tab origin := by
    rintro origin hchanges ⟨hat, hsame⟩
    cases hserver.symm.trans hat
    exact ⟨hserver', hsame.trans (hacts hchanges).symm⟩
  unfold TaskOk at hok ⊢
  cases htask : call.task with
  | list key =>
    rw [htask] at hok
    obtain ⟨hkey, hfresh, hrows⟩ := hok
    refine ⟨hkey, fun context hstage => hkeeps.fresh _ _ hle (hfresh context hstage), fun row hmem => ?_⟩
    rcases hpage (by simp [KubeCall.lists, hrunning, htask]) row hmem with hold | hnew
    · exact hrows row hold
    · exact hnew
  | detail opened =>
    rw [htask] at hok
    obtain ⟨hopened, hplaced, hfresh⟩ := hok
    exact ⟨hopened, hkeeps.placed _ hplaced, fun context hstage => hkeeps.fresh _ _ hle (hfresh context hstage)⟩
  | apply kind row action closing =>
    rw [htask] at hok hacting
    exact hacting _ rfl hok
  | bulk row rest action =>
    rw [htask] at hok hacting
    exact fun r hmem => hacting _ rfl (hok r hmem)
  | edit kind row form =>
    rw [htask] at hok hacts
    intro context server' hstage hat
    cases hserver'.symm.trans hat
    exact (hok context server hstage hserver).trans (hacts rfl).symm
  | save origin form =>
    rw [htask] at hok hacting
    exact hacting _ rfl hok
  | switch context => trivial

/-- The rule of frames. -/
theorem Sound.frame (hopen : ∀ t ∈ s'.openTabs, (s'.tabs t).server ≠ none)
    (hkeeps : ∀ t, (s.tabs t).server ≠ none → Keeps s s' t)
    (hpages : ∀ t kind, s'.PageOk t ((s'.tabs t).pages kind))
    (hcalls : ∀ call ∈ s'.calls, s.CallOk call ∧
      (call.acts = true → ∀ server, (s.tabs call.tab).server = some server → s'.contexts server = s.contexts server) ∧
      (call.lists = true → ∀ row ∈ ((s'.tabs call.tab).pages call.page).detailRows,
        row ∈ ((s.tabs call.tab).pages call.page).detailRows ∨ call.generation ≤ row.origin.generation)) :
    s'.Sound where
  tabs := hopen
  pages := hpages
  calls := by
    intro call hmem
    obtain ⟨hok, hcontext, hrows⟩ := hcalls call hmem
    exact hok.keeps (hkeeps _ hok.server) hcontext hrows

variable {old new : KubeCall}

theorem Placed.setCall (hold : s.calls[i]? = some old)
    (hgeneration : new.generation = old.generation) (h : s.Placed row) : (s.setCall i new).Placed row := by
  unfold Placed at h ⊢
  by_cases hsame : row.place.1 = i
  · obtain ⟨hlt, -⟩ := List.getElem?_eq_some_iff.mp hold
    rw [hsame, hold] at h
    rw [hsame]
    simpa [KubeClusters.setCall, List.getElem?_set_self hlt, hgeneration] using h
  · simpa [KubeClusters.setCall, List.getElem?_set_ne (Ne.symm hsame)] using h

theorem Placed.concat (h : s.Placed row) : { s with calls := s.calls ++ [call] }.Placed row := by
  unfold Placed at h ⊢
  obtain ⟨reader, hat, hgeneration⟩ := Option.map_eq_some_iff.mp h
  obtain ⟨hlt, -⟩ := List.getElem?_eq_some_iff.mp hat
  rw [List.getElem?_append_left hlt, hat]
  exact congrArg some hgeneration

theorem switching_setCall (hold : s.calls[i]? = some old) (htab : new.tab = old.tab)
    (hswitched : old.tab = t → old.switched = true → new.switched = true) (h : s.switching t = true) :
    (s.setCall i new).switching t = true := by
  obtain ⟨hlt, hat⟩ := List.getElem?_eq_some_iff.mp hold
  obtain ⟨call, hmem, hcall⟩ := List.any_eq_true.mp h
  rw [Bool.and_eq_true, decide_eq_true_eq] at hcall
  obtain ⟨j, hj⟩ := List.mem_iff_getElem?.mp hmem
  by_cases hsame : j = i
  · rw [hsame, hold] at hj
    cases hj
    refine List.any_eq_true.mpr ⟨new, List.mem_set hlt new, ?_⟩
    simp [htab, hcall.1, hswitched hcall.1 hcall.2]
  · refine List.any_eq_true.mpr ⟨call, ?_, by simp [hcall.1, hcall.2]⟩
    refine List.mem_iff_getElem?.mpr ⟨j, ?_⟩
    rw [← hj]
    exact List.getElem?_set_ne (Ne.symm hsame)

theorem Keeps.of_calls {calls : List KubeCall} (hplaced : ∀ row, s.Placed row → { s with calls := calls }.Placed row)
    (hswitching : ∀ t, s.switching t = true → { s with calls := calls }.switching t = true) (t : Nat) :
    Keeps s { s with calls := calls } t where
  server := fun _ hserver => hserver
  generation := le_rfl
  fresh := by
    intro generation context _ hfresh hopen hnow
    rcases hfresh hopen hnow with hswitch | hcontext
    · exact .inl (hswitching t hswitch)
    · exact .inr hcontext
  placed := hplaced

theorem Keeps.setCall (hold : s.calls[i]? = some old) (htab : new.tab = old.tab)
    (hgeneration : new.generation = old.generation) (hswitched : old.switched = true → new.switched = true)
    (t : Nat) : Keeps s (s.setCall i new) t :=
  Keeps.of_calls (fun _ h => h.setCall hold hgeneration)
    (fun _ h => switching_setCall hold htab (fun _ => hswitched) h) t

theorem Sound.setCall (h : s.Sound) (hold : s.calls[i]? = some old) (htab : new.tab = old.tab)
    (hgeneration : new.generation = old.generation) (hswitched : old.switched = true → new.switched = true)
    (htask : new.stage.over = false → s.TaskOk new) : (s.setCall i new).Sound := by
  have hkeeps := Keeps.setCall hold htab hgeneration hswitched
  refine Sound.frame h.tabs (fun t _ => hkeeps t) (fun t kind => (h.pages t kind).keeps (hkeeps t)) fun call hmem => ?_
  have hok : s.CallOk call := by
    rcases List.mem_or_eq_of_mem_set hmem with hother | rfl
    · exact h.calls call hother
    · have hcall := h.calls old (List.mem_of_getElem? hold)
      exact ⟨htab ▸ hcall.server, htab ▸ hgeneration ▸ hcall.generation, htask⟩
  exact ⟨hok, fun _ _ _ => rfl, fun _ _ hrow => .inl hrow⟩

theorem Sound.done (h : s.Sound) (hold : s.calls[i]? = some call) (hswitched : call.switched = false) :
    (s.setStage i call .done).Sound :=
  h.setCall hold rfl rfl (by simp [hswitched]) (fun hrunning => nomatch hrunning)

theorem Keeps.done (hold : s.calls[i]? = some call) (hswitched : call.switched = false) (t : Nat) :
    Keeps s (s.setStage i call .done) t := by
  change Keeps s (s.setCall i { call with stage := .done }) t
  refine Keeps.setCall hold ?_ ?_ ?_ t
  · rfl
  · rfl
  · simp [hswitched]

theorem begin_eq (s : KubeClusters) (t : Nat) (kind : KubeKind) (quiet : Bool) (task : KubeTask) (stage : KubeStage) :
    s.begin t kind quiet task stage = s ∨ s.begin t kind quiet task stage =
      { s with calls := s.calls ++ [⟨t, kind, quiet, (s.tabs t).generation, task, stage⟩] } := by
  simp only [KubeClusters.begin]
  split
  · exact .inr rfl
  · exact .inl rfl

variable {kind : KubeKind} {quiet : Bool}

theorem getElem?_begin {task : KubeTask} {stage : KubeStage}
    (hold : s.calls[i]? = some call) : (s.begin t kind quiet task stage).calls[i]? = some call := by
  rcases begin_eq s t kind quiet task stage with hsame | hcalls
  · rw [hsame, hold]
  · rw [hcalls, ← hold]
    exact List.getElem?_append_left (List.getElem?_eq_some_iff.mp hold).1

theorem getElem?_load (hold : s.calls[i]? = some call) : (s.load t kind quiet).calls[i]? = some call := by
  unfold KubeClusters.load
  simp only
  split
  · exact getElem?_begin hold
  · refine getElem?_begin ?_
    split
    · exact hold
    · exact hold

theorem Keeps.concat (call : KubeCall) (t : Nat) : Keeps s { s with calls := s.calls ++ [call] } t := by
  refine Keeps.of_calls (fun _ h => h.concat) (fun u hswitching => ?_) t
  unfold switching at hswitching ⊢
  rw [List.any_append, hswitching]
  rfl

theorem Sound.begin {task : KubeTask} {stage : KubeStage} (h : s.Sound) (hserver : (s.tabs t).server ≠ none)
    (htask : s.TaskOk ⟨t, kind, quiet, (s.tabs t).generation, task, stage⟩) :
    (s.begin t kind quiet task stage).Sound := by
  rcases begin_eq s t kind quiet task stage with hsame | hcalls
  · exact hsame.symm ▸ h
  · rw [hcalls]
    have hkeeps := fun u => Keeps.concat (s := s) ⟨t, kind, quiet, (s.tabs t).generation, task, stage⟩ u
    refine Sound.frame h.tabs (fun u _ => hkeeps u) (fun u kind => (h.pages u kind).keeps (hkeeps u)) ?_
    intro call hmem
    refine ⟨?_, fun _ _ _ => rfl, fun _ _ hrow => .inl hrow⟩
    rcases List.mem_append.mp hmem with hother | hnew
    · exact h.calls call hother
    · obtain rfl := List.mem_singleton.mp hnew
      exact ⟨hserver, le_rfl, fun _ => htask⟩

theorem Keeps.of_tabs {tabs : Nat → KubeTab} (hserver : (tabs t).server = (s.tabs t).server)
    (hgeneration : (tabs t).generation = (s.tabs t).generation) : Keeps s { s with tabs := tabs } t where
  server := fun _ hat => hserver.trans hat
  generation := hgeneration.ge
  fresh := by
    intro generation context _ hfresh hopen hnow
    rcases hfresh hopen (hnow.trans hgeneration) with hswitch | hcontext
    · exact .inl hswitch
    · exact .inr fun server hat => hcontext server (hserver.symm.trans hat)
  placed := fun _ hplaced => hplaced

theorem Sound.setTab {tab : KubeTab} (h : s.Sound) (hserver : tab.server = (s.tabs t).server)
    (hgeneration : tab.generation = (s.tabs t).generation)
    (hpages : ∀ kind, s.PageOk t (tab.pages kind))
    (hrows : ∀ kind, ∀ row ∈ (tab.pages kind).detailRows, row ∈ ((s.tabs t).pages kind).detailRows ∨
      ∀ call ∈ s.calls, call.tab = t → call.page = kind → call.lists = true → call.generation ≤ row.origin.generation) :
    (s.setTab t tab).Sound := by
  have hsame : ∀ u, ((s.setTab t tab).tabs u).server = (s.tabs u).server ∧
      ((s.setTab t tab).tabs u).generation = (s.tabs u).generation := by
    intro u
    by_cases hu : u = t
    · subst hu
      simp [KubeClusters.setTab, hserver, hgeneration]
    · simp [KubeClusters.setTab, hu]
  have hkeeps : ∀ u, Keeps s (s.setTab t tab) u := fun u => Keeps.of_tabs (hsame u).1 (hsame u).2
  refine Sound.frame (fun u hopen => ?_) (fun u _ => hkeeps u) (fun u kind => ?_) fun call hmem => ?_
  · rw [(hsame u).1]
    exact h.tabs u hopen
  · refine PageOk.keeps ?_ (hkeeps u)
    by_cases hu : u = t
    · subst hu
      simpa [KubeClusters.setTab] using hpages kind
    · simpa [KubeClusters.setTab, hu] using h.pages u kind
  · refine ⟨h.calls call hmem, fun _ _ _ => rfl, fun hlists row hrow => ?_⟩
    by_cases hu : call.tab = t
    · subst hu
      have hrow' : row ∈ (tab.pages call.page).detailRows := by simpa [KubeClusters.setTab] using hrow
      rcases hrows call.page row hrow' with hold | hnew
      · exact .inl hold
      · exact .inr (hnew call hmem rfl rfl hlists)
    · simp only [KubeClusters.setTab, Function.update_of_ne hu] at hrow
      exact .inl hrow

theorem Sound.setPage (h : s.Sound) (hpage : s.PageOk t page)
    (hrows : ∀ row ∈ page.detailRows, row ∈ ((s.tabs t).pages kind).detailRows ∨
      ∀ call ∈ s.calls, call.tab = t → call.page = kind → call.lists = true → call.generation ≤ row.origin.generation) :
    (s.setPage t kind page).Sound := by
  refine h.setTab rfl rfl (fun other => ?_) (fun other row hrow => ?_)
  · by_cases hother : other = kind
    · subst hother
      simpa [KubeTab.setPage] using hpage
    · simpa [KubeTab.setPage, hother] using h.pages t other
  · by_cases hother : other = kind
    · subst hother
      exact hrows row (by simpa [KubeTab.setPage] using hrow)
    · simp only [KubeTab.setPage, Function.update_of_ne hother] at hrow
      exact .inl hrow

theorem mem_rowsAt {i first : Nat} {origin : KubeOrigin} {items : List JsonMap}
    (hmem : row ∈ rowsAt i first origin items) : row.origin = origin ∧ row.place.1 = i := by
  obtain ⟨item, -, rfl⟩ := List.mem_map.mp hmem
  exact ⟨rfl, rfl⟩

variable {readDouble : String → String} {output context : String}

theorem mem_readDetail {origin : KubeOrigin} {detail : KubeDetail}
    (hread : readDetail readDouble i origin output = some detail)
    (hmem : row ∈ detail.row :: detail.pods ++ detail.services) : row.origin = origin ∧ row.place.1 = i := by
  obtain ⟨items, -, rfl⟩ := Option.map_eq_some_iff.mp hread
  rcases List.mem_append.mp hmem with hfirst | hservice
  · rcases List.mem_cons.mp hfirst with rfl | hpod
    · exact ⟨rfl, rfl⟩
    · exact mem_rowsAt hpod
  · exact mem_rowsAt hservice

theorem PageOk.detailRows_eq_nil (h : s.PageOk t page) (htrail : page.trail = []) : page.detailRows = [] := by
  simp [ResourcePage.detailRows, htrail, h.closed htrail]

variable {opened shown : KubeKind × KubeRow}

theorem mem_detailRows_of_trail (hmem : opened ∈ page.trail) : opened.2 ∈ page.detailRows :=
  List.mem_append_left _ (List.mem_map_of_mem hmem)

theorem mem_detailRows_open
    (hmem : row ∈ ResourcePage.detailRows { page with trail := shown :: page.trail, detail := none }) :
    row = shown.2 ∨ row ∈ page.detailRows := by
  simp only [ResourcePage.detailRows, List.map_cons, List.append_nil, List.mem_cons] at hmem
  exact hmem.imp_right fun htrail => List.mem_append_left _ htrail

theorem mem_detailRows_close
    (hmem : row ∈ ResourcePage.detailRows { page with trail := page.trail.tail, detail := none }) :
    row ∈ page.detailRows := by
  simp only [ResourcePage.detailRows, List.append_nil] at hmem
  obtain ⟨opened, hopened, rfl⟩ := List.mem_map.mp hmem
  exact mem_detailRows_of_trail (List.mem_of_mem_tail hopened)

theorem mem_detailRows_show {detail : KubeDetail}
    (hmem : row ∈ ResourcePage.detailRows { page with detail := some detail }) :
    row ∈ page.detailRows ∨ row ∈ detail.row :: detail.pods ++ detail.services := by
  rcases List.mem_append.mp hmem with htrail | hrow
  · exact .inl (List.mem_append_left _ htrail)
  · exact .inr hrow

theorem Sound.load (h : s.Sound) (hopen : t ∈ s.openTabs) : (s.load t kind quiet).Sound := by
  have hpage := h.pages t kind
  unfold KubeClusters.load
  simp only
  split
  next opened trail htrail =>
    have hrow := hpage.details opened.2 (mem_detailRows_of_trail (by simp [htrail]))
    exact h.begin (h.tabs t hopen) ⟨hrow.generation, hrow.placed, by simp⟩
  next htrail =>
    have hlist : ∀ s' : KubeClusters, s'.Sound → t ∈ s'.openTabs → ((s'.tabs t).pages kind).trail = [] →
        (s'.tabs t).generation = (s.tabs t).generation →
        (s'.begin t kind quiet (.list ((s.tabs t).key kind)) .sent).Sound := by
      intro s' hs hopen hnil hkey
      refine hs.begin (hs.tabs t hopen) ⟨hkey.symm, by simp, fun row hmem => ?_⟩
      rw [(hs.pages t kind).detailRows_eq_nil hnil] at hmem
      cases hmem
    refine hlist _ ?_ ?_ ?_ ?_
    · split
      · refine h.setPage ⟨by simp, hpage.details, fun key hkey => ?_, hpage.closed⟩ fun row hrow => .inl hrow
        obtain ⟨hle, -, hrows⟩ := hpage.loaded key hkey
        exact ⟨hle, by simp, hrows⟩
      · exact h
    · split
      · exact hopen
      · exact hopen
    · split
      · simpa [KubeClusters.setPage, KubeClusters.setTab, KubeTab.setPage] using htrail
      · exact htrail
    · split
      · simp [KubeClusters.setPage, KubeClusters.setTab, KubeTab.setPage]
      · rfl

/-- What is known of an answer: the generation and the context in which it was read. -/
structure Answered (s : KubeClusters) (i : Nat) (call : KubeCall) (context : String) : Prop where
  placed : (s.calls[i]?).map KubeCall.generation = some call.generation
  generation : call.generation ≤ (s.tabs call.tab).generation
  fresh : s.Fresh call.tab call.generation context

theorem Answered.rowOk {server : String} (h : s.Answered i call context)
    (hserver : (s.tabs call.tab).server = some server)
    (hrow : row.origin = ⟨server, context, call.generation⟩ ∧ row.place.1 = i) : s.RowOk call.tab row := by
  obtain ⟨item, place, origin⟩ := row
  obtain ⟨rfl, rfl⟩ := hrow
  exact ⟨hserver, h.generation, h.fresh, h.placed⟩

theorem Sound.listed {key : PageKey} (h : s.Sound)
    (hanswer : s.Answered i call context) (hkey : key.generation = call.generation)
    (hdetails : ∀ row ∈ ((s.tabs call.tab).pages call.page).detailRows, call.generation ≤ row.origin.generation) :
    (s.listed readDouble i call key context output).Sound := by
  have hpage := h.pages call.tab call.page
  unfold KubeClusters.listed
  simp only
  split
  · split
    next items server hitems hserver =>
      refine h.setPage ⟨fun row hmem => ?_, hpage.details, ?_, hpage.closed⟩ fun row hrow => .inl hrow
      · exact hanswer.rowOk hserver (mem_rowsAt hmem)
      · rintro _ ⟨⟩
        refine ⟨hkey.trans_le hanswer.generation, fun row hmem => ?_, fun row hmem => hkey.trans_le (hdetails row hmem)⟩
        rw [(mem_rowsAt hmem).1]
        exact hkey.symm
    next => exact h
  · exact h

theorem Sound.detailed (h : s.Sound) (hanswer : s.Answered i call context)
    (hle : opened.2.origin.generation ≤ call.generation)
    (hplaced : s.Placed opened.2) : (s.detailed readDouble i call opened context output).Sound := by
  have hpage := h.pages call.tab call.page
  unfold KubeClusters.detailed
  simp only
  split
  next hsame =>
    split
    next detail hdetail =>
      obtain ⟨server, hserver, hparse⟩ := Option.bind_eq_some_iff.mp hdetail
      obtain ⟨top, htop, hplace⟩ := (Option.any_eq_true _ _).mp hsame.2
      rw [decide_eq_true_eq] at hplace
      have hmem := mem_detailRows_of_trail (List.mem_of_mem_head? htop)
      -- The item at the top of the trail is the one that was asked for: it was read in the same generation.
      have htople : top.2.origin.generation ≤ call.generation := by
        have hplaced' := (hpage.details _ hmem).placed
        unfold Placed at hplaced hplaced'
        rw [hplace.2, hplaced, Option.some.injEq] at hplaced'
        omega
      have hnew : ∀ row ∈ detail.row :: detail.pods ++ detail.services,
          s.RowOk call.tab row ∧ row.origin.generation = call.generation := by
        intro row hrow
        have horigin := mem_readDetail hparse hrow
        exact ⟨hanswer.rowOk hserver horigin, by rw [horigin.1]⟩
      refine h.setPage ⟨hpage.items, fun row hrow => ?_, fun key hkey => ?_, fun hnil => ?_⟩ fun row hrow => ?_
      · rcases mem_detailRows_show hrow with hold | hrow
        · exact hpage.details row hold
        · exact (hnew row hrow).1
      · obtain ⟨hle', hitems, hrows⟩ := hpage.loaded key hkey
        refine ⟨hle', hitems, fun row hrow => ?_⟩
        rcases mem_detailRows_show hrow with hold | hrow
        · exact hrows row hold
        · rw [(hnew row hrow).2]
          exact (hrows _ hmem).trans htople
      · rw [show ((s.tabs call.tab).pages call.page).trail = [] from hnil] at htop
        cases htop
      · rcases mem_detailRows_show hrow with hold | hrow
        · exact .inl hold
        · refine .inr fun other hother htab hkind hlists => ?_
          rw [(hnew row hrow).2]
          refine le_trans ?_ htople
          simp only [KubeCall.lists, Bool.and_eq_true, Bool.not_eq_true'] at hlists
          have hok := (h.calls other hother).task hlists.1
          unfold TaskOk at hok
          split at hok
          · exact hok.2.2 _ (by rw [htab, hkind]; exact hmem)
          all_goals simp_all
    next => exact h
  · exact h

theorem mem_shown (hmem : shown ∈ page.shown kind) : shown.2 ∈ page.items ∨ shown.2 ∈ page.detailRows := by
  unfold ResourcePage.shown at hmem
  split at hmem
  · obtain ⟨row, hrow, rfl⟩ := List.mem_map.mp hmem
    exact .inl hrow
  next opened trail detail htrail hdetail =>
    refine .inr (List.mem_append_right _ ?_)
    rw [hdetail]
    rcases List.mem_append.mp hmem with hfirst | hservice
    · rcases List.mem_cons.mp hfirst with rfl | hpod
      · exact List.mem_append_left _ (List.mem_cons_self ..)
      · obtain ⟨row, hrow, rfl⟩ := List.mem_map.mp hpod
        exact List.mem_append_left _ (List.mem_cons_of_mem _ hrow)
    · obtain ⟨row, hrow, rfl⟩ := List.mem_map.mp hservice
      exact List.mem_append_right _ hrow
  · cases hmem

theorem rowAt_eq_some {place : Nat × Nat} (hrow : s.rowAt t kind place = some shown) : t ∈ s.openTabs ∧
      (shown.2 ∈ ((s.tabs t).pages kind).items ∨ shown.2 ∈ ((s.tabs t).pages kind).detailRows) := by
  unfold rowAt at hrow
  simp only at hrow
  split at hrow
  next hopen => exact ⟨hopen.1, mem_shown (List.mem_of_find?_eq_some hrow)⟩
  next => cases hrow

end KubeClusters

end Portix.Kubernetes
