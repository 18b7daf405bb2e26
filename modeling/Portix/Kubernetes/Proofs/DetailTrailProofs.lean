import Portix.Kubernetes.Proofs.DetailDatesProofs
import Portix.Kubernetes.Proofs.KubeClustersProofs

/-!
# The trail of details

A delete from a detail closes whatever is shown when its reload has ended. So the trail stays with what the user opened
as long as the detail is still the one that is deleted, and a detail is opened from a list that is up to date.
-/

namespace Portix.Kubernetes

open Lib

namespace KubeClusters

variable {s s' : KubeClusters} {t i : Nat} {kind : KubeKind} {call : KubeCall}

/-- The server, the context or the namespaces have changed: now, or while the page was hidden. -/
def Reselected (s s' : KubeClusters) (t : Nat) (kind : KubeKind) : Prop :=
  (s'.tabs t).key kind ≠ (s.tabs t).key kind ∨
    (((s.tabs t).pages kind).visible = false ∧ ((s'.tabs t).pages kind).visible = true ∧
      ∃ key, ((s.tabs t).pages kind).loadedFor = some key ∧ key ≠ (s'.tabs t).key kind)

/-- A call has deleted the item of an entry: the one that was read for it. -/
def Deleted (s : KubeClusters) (i t : Nat) (kind : KubeKind) (opened : KubeKind × KubeRow) : Prop :=
  ∃ call row entry reload, s.calls[i]? = some call ∧ call.tab = t ∧ call.page = kind ∧ call.stage = .reloading reload ∧
    call.task = .apply entry.1 row .delete (some entry) ∧ s.ReadFor t kind row entry ∧ SameEntry opened entry

/-- What a step does to the trail of a page. -/
inductive TrailStep (s s' : KubeClusters) (event : KubeEvent) (t : Nat) (kind : KubeKind) : Prop where
  | stays (same : ((s'.tabs t).pages kind).trail = ((s.tabs t).pages kind).trail)
  | opens (place : Nat × Nat) (opened : KubeKind × KubeRow) (is : event = .openDetail t kind place)
      (more : ((s'.tabs t).pages kind).trail = opened :: ((s.tabs t).pages kind).trail)
  | back (opened : KubeKind × KubeRow) (is : event = .closeDetail t kind)
      (shown : ((s.tabs t).pages kind).visible = true)
      (less : ((s.tabs t).pages kind).trail = opened :: ((s'.tabs t).pages kind).trail)
  | deletes (i : Nat) (opened : KubeKind × KubeRow) (is : event = .close i) (own : s.Deleted i t kind opened)
      (less : ((s.tabs t).pages kind).trail = opened :: ((s'.tabs t).pages kind).trail)
  | leaves (other : s.Reselected s' t kind) (none : ((s'.tabs t).pages kind).trail = [])

def pops (s : KubeClusters) : KubeEvent → Option (Nat × KubeKind)
  | .closeDetail t kind => some (t, kind)
  | .close i => ((s.calls[i]?).filter fun call => decide (call.tab ∈ s.openTabs)).map fun call => (call.tab, call.page)
  | _ => none

/-- The detail was read for the last entry of the trail, on the server and in the generation that the tab is in. -/
def ShowsLast (s : KubeClusters) (t : Nat) (kind : KubeKind) : Prop :=
  ∀ detail, ((s.tabs t).pages kind).detail = some detail →
    ∃ opened rest, ((s.tabs t).pages kind).trail = opened :: rest ∧ s.ReadFor t kind detail.row opened ∧
      (s.tabs t).server = some detail.row.origin.server ∧
      detail.row.origin.generation = (s.tabs t).generation

def straight (s : KubeClusters) : KubeEvent → Bool
  -- the list was read for what is selected
  | .openDetail t kind _ => decide (((s.tabs t).pages kind).trail ≠ []) ||
    decide (((s.tabs t).pages kind).loadedFor = some ((s.tabs t).key kind))
  -- what was deleted is still shown
  | .close i => (s.calls[i]?).all fun call => decide (call.tab ∉ s.openTabs) || match call.task with
    | .apply _ _ _ (some opened) => sameDetail ((s.tabs call.tab).pages call.page) opened
    | _ => true
  | _ => true

/-- What is selected stays, and the trail of every page; a list may be loaded. -/
structure Still (s s' : KubeClusters) : Prop where
  openTabs : ∀ t ∈ s'.openTabs, t ∈ s.openTabs
  server : ∀ t, (s'.tabs t).server = (s.tabs t).server
  generation : ∀ t, (s'.tabs t).generation = (s.tabs t).generation
  picked : ∀ t, (s'.tabs t).picked = (s.tabs t).picked
  trail : ∀ t kind, ((s'.tabs t).pages kind).trail = ((s.tabs t).pages kind).trail
  visible : ∀ t kind, ((s'.tabs t).pages kind).visible = ((s.tabs t).pages kind).visible
  loadedFor : ∀ t kind, ((s'.tabs t).pages kind).loadedFor = ((s.tabs t).pages kind).loadedFor ∨
    ((s'.tabs t).pages kind).loadedFor = some ((s.tabs t).key kind)

theorem Still.key (h : Still s s') (t : Nat) (kind : KubeKind) : (s'.tabs t).key kind = (s.tabs t).key kind := by
  rw [KubeTab.key, KubeTab.key, h.picked, h.generation]

theorem Still.of_tabs (htabs : s'.tabs = s.tabs) (hopen : ∀ t ∈ s'.openTabs, t ∈ s.openTabs) : Still s s' := by
  refine ⟨hopen, ?_, ?_, ?_, ?_, ?_, ?_⟩ <;> simp [htabs]

theorem Still.trans {s'' : KubeClusters} (h : Still s s') (h' : Still s' s'') : Still s s'' where
  openTabs := fun t hopen => h.openTabs t (h'.openTabs t hopen)
  server := fun t => (h'.server t).trans (h.server t)
  generation := fun t => (h'.generation t).trans (h.generation t)
  picked := fun t => (h'.picked t).trans (h.picked t)
  trail := fun t kind => (h'.trail t kind).trans (h.trail t kind)
  visible := fun t kind => (h'.visible t kind).trans (h.visible t kind)
  loadedFor := by
    intro t kind
    rcases h'.loadedFor t kind with hsame | hnow
    · rw [hsame]
      exact h.loadedFor t kind
    · rw [hnow, h.key]
      exact .inr rfl

theorem pages_setPage (page : ResourcePage) (u : Nat) (other : KubeKind) :
    ((s.setPage t kind page).tabs u).pages other = if u = t ∧ other = kind then page else (s.tabs u).pages other := by
  by_cases hu : u = t
  · subst hu
    by_cases hother : other = kind
    · simp [KubeClusters.setPage, KubeClusters.setTab, KubeTab.setPage, hother]
    · simp [KubeClusters.setPage, KubeClusters.setTab, KubeTab.setPage, hother]
  · simp [KubeClusters.setPage, KubeClusters.setTab, hu]

theorem tab_setPage (page : ResourcePage) (u : Nat) : ((s.setPage t kind page).tabs u).server = (s.tabs u).server ∧
    ((s.setPage t kind page).tabs u).generation = (s.tabs u).generation ∧
    ((s.setPage t kind page).tabs u).picked = (s.tabs u).picked := by
  by_cases hu : u = t
  · subst hu
    simp [KubeClusters.setPage, KubeClusters.setTab, KubeTab.setPage]
  · simp [KubeClusters.setPage, KubeClusters.setTab, hu]

theorem key_setPage (page : ResourcePage) (u : Nat) (other : KubeKind) :
    ((s.setPage t kind page).tabs u).key other = (s.tabs u).key other := by
  rw [KubeTab.key, KubeTab.key, (tab_setPage page u).2.1, (tab_setPage page u).2.2]

theorem Still.setPage {page : ResourcePage} (htrail : page.trail = ((s.tabs t).pages kind).trail)
    (hvisible : page.visible = ((s.tabs t).pages kind).visible)
    (hloaded : page.loadedFor = ((s.tabs t).pages kind).loadedFor ∨ page.loadedFor = some ((s.tabs t).key kind)) :
    Still s (s.setPage t kind page) := by
  refine ⟨fun _ hopen => hopen, fun u => (tab_setPage page u).1, fun u => (tab_setPage page u).2.1,
    fun u => (tab_setPage page u).2.2, fun u other => ?_, fun u other => ?_, fun u other => ?_⟩
  all_goals
    rw [pages_setPage]
    split
  next hsame => exact hsame.1 ▸ hsame.2 ▸ htrail
  next => rfl
  next hsame => exact hsame.1 ▸ hsame.2 ▸ hvisible
  next => rfl
  next hsame => exact hsame.1 ▸ hsame.2 ▸ hloaded
  next => exact .inl rfl

variable {stage : KubeStage}

theorem Still.begin {quiet : Bool} {task : KubeTask} : Still s (s.begin t kind quiet task stage) := by
  rcases begin_eq s t kind quiet task stage with hsame | hcalls
  · rw [hsame]
    exact Still.of_tabs rfl fun _ hopen => hopen
  · rw [hcalls]
    exact Still.of_tabs rfl fun _ hopen => hopen

theorem Still.load {quiet : Bool} : Still s (s.load t kind quiet) := by
  unfold KubeClusters.load
  simp only
  split
  · exact Still.begin
  · refine Still.trans ?_ Still.begin
    split
    · exact Still.setPage rfl rfl (.inl rfl)
    · exact Still.of_tabs rfl fun _ hopen => hopen

theorem Still.setStage : Still s (s.setStage i call stage) :=
  Still.of_tabs rfl fun _ hopen => hopen

variable {action : RowAction}

theorem Still.goOn {next : KubeRow} {rest : List KubeRow} : Still s (s.goOn i call next rest action) := by
  unfold KubeClusters.goOn
  split <;> exact Still.of_tabs rfl fun _ hopen => hopen

theorem Still.fail : Still s (s.fail i call) := by
  unfold KubeClusters.fail
  split
  · split
    · exact Still.goOn
    · exact Still.setStage
  · split
    · exact Still.setStage.trans Still.load
    · exact Still.setStage
  all_goals exact Still.setStage

theorem Still.applied {closing : Option (KubeKind × KubeRow)} : Still s (s.applied i call closing) := by
  unfold KubeClusters.applied
  simp only
  split
  · exact Still.load.trans Still.setStage
  · exact Still.load

variable {readDouble : String → String} {context output : String}

theorem Still.listed {key : PageKey} : Still s (s.listed readDouble i call key context output) := by
  unfold KubeClusters.listed
  simp only
  split
  next hnow =>
    split
    · exact Still.setPage rfl rfl (.inr (congrArg some hnow.2.symm))
    · exact Still.of_tabs rfl fun _ hopen => hopen
  · exact Still.of_tabs rfl fun _ hopen => hopen

theorem Still.detailed {opened : KubeKind × KubeRow} :
    Still s (s.detailed readDouble i call opened context output) := by
  unfold KubeClusters.detailed
  simp only
  split
  · split
    · exact Still.setPage rfl rfl (.inl rfl)
    · exact Still.of_tabs rfl fun _ hopen => hopen
  · exact Still.of_tabs rfl fun _ hopen => hopen

theorem Still.succeed (htask : ∀ context, call.task ≠ .switch context) : Still s
    (s.succeed readDouble i call context output) := by
  unfold KubeClusters.succeed
  cases hcase : call.task with
  | list key => exact Still.setStage.trans Still.listed
  | detail opened => exact Still.setStage.trans Still.detailed
  | apply kind row action closing =>
    simp only
    split
    · exact Still.setStage.trans Still.applied
    · exact Still.setStage
  | save origin form =>
    simp only
    split
    · exact Still.setStage.trans Still.load
    · exact Still.setStage
  | bulk row rest action =>
    simp only
    split
    · have hticked : Still s (s.setPage call.tab call.page { (s.tabs call.tab).pages call.page with
          ticked := ((s.tabs call.tab).pages call.page).ticked.filter (· ≠ pickKey row) }) :=
        Still.setPage rfl rfl (.inl rfl)
      cases rest with
      | nil => exact hticked.trans (Still.setStage.trans Still.load)
      | cons next rest => exact hticked.trans Still.goOn
    · exact Still.setStage
  | edit kind row form =>
    simp only
    split
    · split
      · exact Still.of_tabs rfl fun _ hopen => hopen
      · exact Still.setStage
    · exact Still.setStage
  | switch context => exact absurd hcase (htask context)

theorem Still.runCall {server : String} : Still s (s.runCall i call server).1 := by
  unfold KubeClusters.runCall
  simp only
  split <;> exact Still.of_tabs rfl fun _ hopen => hopen

/-- A page that is shown with a detail has loaded its list for what is selected. -/
def UpToDate (s : KubeClusters) (t : Nat) (kind : KubeKind) : Prop :=
  ((s.tabs t).pages kind).visible = true → ((s.tabs t).pages kind).trail ≠ [] →
    ((s.tabs t).pages kind).loadedFor = some ((s.tabs t).key kind)

/-- What holds of every state that such steps lead to. -/
structure Navigable (s : KubeClusters) : Prop where
  dated : s.Dated
  shown : ∀ t kind, s.UpToDate t kind
  listed : ∀ t kind, ((s.tabs t).pages kind).trail ≠ [] → ((s.tabs t).pages kind).loadedFor ≠ none
  opened : ∀ t ∈ s.openTabs, (s.tabs t).server ≠ none
  unused : ∀ t, (s.tabs t).server = none → (s.tabs t).generation = 0 ∧ ∀ kind, ((s.tabs t).pages kind).trail = []

theorem Navigable.still (h : s.Navigable) (hdated : s'.Dated) (hstill : Still s s') : s'.Navigable where
  dated := hdated
  shown := by
    intro t kind hvisible htrail
    rw [hstill.visible] at hvisible
    rw [hstill.trail] at htrail
    rw [hstill.key]
    rcases hstill.loadedFor t kind with hsame | hnow
    · rw [hsame]
      exact h.shown t kind hvisible htrail
    · exact hnow
  listed := by
    intro t kind htrail
    rw [hstill.trail] at htrail
    rcases hstill.loadedFor t kind with hsame | hnow
    · rw [hsame]
      exact h.listed t kind htrail
    · rw [hnow]
      exact Option.some_ne_none _
  opened := by
    intro t hopen
    rw [hstill.server]
    exact h.opened t (hstill.openTabs t hopen)
  unused := by
    intro t hnone
    rw [hstill.server] at hnone
    obtain ⟨hgeneration, htrail⟩ := h.unused t hnone
    exact ⟨(hstill.generation t).trans hgeneration, fun kind => (hstill.trail t kind).trans (htrail kind)⟩

theorem Navigable.showsLast (h : s.Navigable) (hvisible : ((s.tabs t).pages kind).visible = true) :
    s.ShowsLast t kind := by
  intro detail hdetail
  have hpage := h.dated.pages t kind
  obtain ⟨hserver, opened, rest, htrail, hread⟩ := hpage.read detail hdetail
  refine ⟨opened, rest, htrail, hread, hserver, ?_⟩
  have hloaded := h.shown t kind hvisible (by simp [htrail])
  have hmem : detail.row ∈ ((s.tabs t).pages kind).detailRows := by
    rw [ResourcePage.detailRows, hdetail]
    exact List.mem_append_right _ List.mem_cons_self
  have hge : (s.tabs t).generation ≤ detail.row.origin.generation :=
    (hpage.loaded _ hloaded).2.2 detail.row hmem
  exact Nat.le_antisymm (hpage.details detail.row hmem).2 hge

theorem sync_cases (tab : KubeTab) (kind : KubeKind) :
    ((tab.sync kind).trail = [] ∧ (tab.pages kind).visible = true ∧ (tab.pages kind).loadedFor ≠ some (tab.key kind)) ∨
      (tab.sync kind = tab.pages kind ∧
        ((tab.pages kind).visible = true → (tab.pages kind).loadedFor = some (tab.key kind))) := by
  unfold KubeTab.sync
  simp only
  split
  next hleft => exact .inl ⟨rfl, hleft⟩
  next hstays =>
    refine .inr ⟨rfl, fun hvisible => ?_⟩
    by_contra hne
    exact hstays ⟨hvisible, hne⟩

theorem visible_sync (tab : KubeTab) (kind : KubeKind) : (tab.sync kind).visible = (tab.pages kind).visible := by
  unfold KubeTab.sync
  simp only
  split <;> rfl

/-- A step leads to such a state again, and the trails change as they may. -/
structure Steps (s s' : KubeClusters) (event : KubeEvent) : Prop where
  navigable : s'.Navigable
  trail : ∀ t kind, TrailStep s s' event t kind

theorem Navigable.notify (h : s.Navigable) (tab : KubeTab) (hserver : tab.server = (s.tabs t).server)
    (hgeneration : (s.tabs t).generation ≤ tab.generation) (hpages : tab.pages = (s.tabs t).pages)
    (hopen : (s.tabs t).server ≠ none) (event : KubeEvent) :
    Steps s (s.setTab t tab.notify) event := by
  have hself : (s.setTab t tab.notify).tabs t = tab.notify := Function.update_self ..
  have hother : ∀ u, u ≠ t → (s.setTab t tab.notify).tabs u = s.tabs u := fun u hu => Function.update_of_ne hu ..
  have hkey : ∀ kind, tab.notify.key kind = tab.key kind := fun kind => rfl
  have hcases : ∀ kind, (tab.sync kind).trail = ((s.tabs t).pages kind).trail ∨
      ((tab.sync kind).trail = [] ∧ tab.key kind ≠ (s.tabs t).key kind) := by
    intro kind
    rcases sync_cases tab kind with ⟨hnil, hvisible, hne⟩ | ⟨hsame, -⟩
    · by_cases htrail : ((s.tabs t).pages kind).trail = []
      · exact .inl (hnil.trans htrail.symm)
      · refine .inr ⟨hnil, fun heq => hne ?_⟩
        rw [hpages] at hvisible ⊢
        rw [heq]
        exact h.shown t kind hvisible htrail
    · rw [hsame, hpages]
      exact .inl rfl
  refine ⟨⟨h.dated.notify hserver hgeneration hpages, fun u kind => ?_, fun u kind => ?_, fun u hu => ?_,
    fun u hu => ?_⟩, fun u kind => ?_⟩
  · by_cases hut : u = t
    · subst hut
      unfold UpToDate
      rw [hself, hkey]
      intro hvisible htrail
      change (tab.sync kind).visible = true at hvisible
      change (tab.sync kind).trail ≠ [] at htrail
      change (tab.sync kind).loadedFor = _
      rcases sync_cases tab kind with ⟨hnil, -, -⟩ | ⟨hsame, hloaded⟩
      · exact absurd hnil htrail
      · rw [hsame] at hvisible ⊢
        exact hloaded hvisible
    · unfold UpToDate
      rw [hother u hut]
      exact h.shown u kind
  · by_cases hut : u = t
    · subst hut
      rw [hself]
      change (tab.sync kind).trail ≠ [] → (tab.sync kind).loadedFor ≠ none
      rcases sync_cases tab kind with ⟨hnil, -, -⟩ | ⟨hsame, -⟩
      · exact fun htrail => absurd hnil htrail
      · rw [hsame, hpages]
        exact h.listed u kind
    · rw [hother u hut]
      exact h.listed u kind
  · by_cases hut : u = t
    · subst hut
      rw [hself]
      exact fun hnone => hopen (hserver.symm.trans hnone)
    · rw [hother u hut]
      exact h.opened u hu
  · by_cases hut : u = t
    · subst hut
      rw [hself] at hu
      exact absurd (hserver.symm.trans hu) hopen
    · rw [hother u hut] at hu ⊢
      exact h.unused u hu
  · by_cases hut : u = t
    · subst hut
      rcases hcases kind with hsame | ⟨hnil, hne⟩
      · refine .stays ?_
        rw [hself]
        exact hsame
      · refine .leaves (.inl ?_) ?_
        · rw [hself]
          exact hne
        · rw [hself]
          exact hnil
    · refine .stays ?_
      rw [hother u hut]

theorem Navigable.pick (h : s.Navigable) (hopen : t ∈ s.openTabs) (picked : List String) (event : KubeEvent) :
    Steps s (s.setTab t { s.tabs t with picked := picked }.notify) event :=
  h.notify { s.tabs t with picked := picked } rfl le_rfl rfl (h.opened t hopen) event

variable {event : KubeEvent}

theorem TrailStep.still {s'' : KubeClusters} (h : TrailStep s s' event t kind)
    (hstill : Still s' s'') : TrailStep s s'' event t kind := by
  have htrail := hstill.trail t kind
  cases h with
  | stays same => exact .stays (htrail.trans same)
  | opens place opened is more => exact .opens place opened is (htrail.trans more)
  | back opened is shown less => exact .back opened is shown (htrail ▸ less)
  | deletes i opened is own less => exact .deletes i opened is own (htrail ▸ less)
  | leaves other none =>
    refine .leaves ?_ (htrail.trans none)
    unfold Reselected at other ⊢
    rwa [hstill.key, hstill.visible]

theorem TrailStep.of_setStage (h : TrailStep (s.setStage i call stage) s' event t kind)
    (hevent : ∀ j, event ≠ .close j) :
    TrailStep s s' event t kind := by
  cases h with
  | stays same => exact .stays same
  | opens place opened is more => exact .opens place opened is more
  | back opened is shown less => exact .back opened is shown less
  | deletes j opened is own less => exact absurd is (hevent j)
  | leaves other none => exact .leaves other none

theorem Navigable.setPage {page : ResourcePage} (h : s.Navigable)
    (hdated : (s.setPage t kind page).Dated) (hopen : (s.tabs t).server ≠ none)
    (hshown : page.visible = true → page.trail ≠ [] → page.loadedFor = some ((s.tabs t).key kind))
    (hlisted : page.trail ≠ [] → page.loadedFor ≠ none) (htrail : TrailStep s (s.setPage t kind page) event t kind) :
    Steps s (s.setPage t kind page) event := by
  refine ⟨⟨hdated, fun u other => ?_, fun u other => ?_, fun u hu => ?_, fun u hu => ?_⟩, fun u other => ?_⟩
  · unfold UpToDate
    rw [pages_setPage, key_setPage]
    split
    next hsame => exact hsame.1 ▸ hsame.2 ▸ hshown
    next => exact h.shown u other
  · rw [pages_setPage]
    split
    · exact hlisted
    · exact h.listed u other
  · rw [(tab_setPage page u).1]
    exact h.opened u hu
  · rw [(tab_setPage page u).1] at hu
    obtain ⟨hgeneration, hnil⟩ := h.unused u hu
    refine ⟨(tab_setPage page u).2.1.trans hgeneration, fun other => ?_⟩
    have hother : ¬ (u = t ∧ other = kind) := fun hsame => hopen (hsame.1 ▸ hu)
    rw [pages_setPage, if_neg hother]
    exact hnil other
  · by_cases hsame : u = t ∧ other = kind
    · rw [hsame.1, hsame.2]
      exact htrail
    · refine .stays ?_
      rw [pages_setPage, if_neg hsame]

theorem Navigable.show (h : s.Navigable) (kind : KubeKind) (hopen : t ∈ s.openTabs) (visible : Bool)
    (event : KubeEvent) :
    let tab := (s.tabs t).setPage kind { (s.tabs t).pages kind with visible := visible }
    Steps s (s.setTab t (tab.setPage kind (tab.sync kind))) event := by
  let tab := (s.tabs t).setPage kind { (s.tabs t).pages kind with visible := visible }
  have hself : tab.pages kind = { (s.tabs t).pages kind with visible := visible } := Function.update_self ..
  have hset : s.setTab t (tab.setPage kind (tab.sync kind)) = s.setPage t kind (tab.sync kind) := by
    simp [tab, KubeClusters.setPage, KubeTab.setPage]
  have hdated := PageDated.sync tab (by rw [hself]; exact (h.dated.pages t kind).show visible)
  have hrows : ∀ row ∈ (tab.sync kind).detailRows, row ∈ ((s.tabs t).pages kind).detailRows := by
    intro row hrow
    have hrow' := hdated.2 row hrow
    rwa [hself] at hrow'
  show Steps s (s.setTab t (tab.setPage kind (tab.sync kind))) event
  rw [hset]
  have hcases := sync_cases tab kind
  rw [hself] at hcases
  refine h.setPage (h.dated.setPage hdated.1 fun row hrow => .inl (hrows row hrow)) (h.opened t hopen)
    (fun hvisible htrail => ?_) (fun htrail => ?_) ?_
  · rcases hcases with ⟨hnil, -, -⟩ | ⟨hsame, hloaded⟩
    · exact absurd hnil htrail
    · rw [hsame] at hvisible ⊢
      exact hloaded hvisible
  · rcases hcases with ⟨hnil, -, -⟩ | ⟨hsame, -⟩
    · exact absurd hnil htrail
    · rw [hsame] at htrail ⊢
      exact h.listed t kind htrail
  · rcases hcases with ⟨hnil, hvisible, hne⟩ | ⟨hsame, -⟩
    · by_cases htrail : ((s.tabs t).pages kind).trail = []
      · refine .stays ?_
        rw [pages_setPage, if_pos ⟨rfl, rfl⟩, hnil, htrail]
      · have hhidden : ((s.tabs t).pages kind).visible = false := by
          refine Bool.eq_false_iff.mpr fun hvisible => hne (h.shown t kind hvisible htrail)
        obtain ⟨key, hkey⟩ := Option.ne_none_iff_exists'.mp (h.listed t kind htrail)
        refine .leaves (.inr ⟨hhidden, ?_, key, hkey, ?_⟩) ?_
        · rw [pages_setPage, if_pos ⟨rfl, rfl⟩, visible_sync, hself]
          exact hvisible
        · rw [key_setPage]
          exact fun heq => hne (hkey.trans (congrArg some heq))
        · rw [pages_setPage, if_pos ⟨rfl, rfl⟩]
          exact hnil
    · refine .stays ?_
      rw [pages_setPage, if_pos ⟨rfl, rfl⟩, hsame]

theorem Navigable.openTab (h : s.Navigable) (server : String) (hnone : (s.tabs t).server = none) (event : KubeEvent) :
    let s' := { s with openTabs := s.openTabs ++ [t] }.setTab t { server := some server, generation := 1 }
    Steps s s' event := by
  intro s'
  have hself : s'.tabs t = { server := some server, generation := 1 } := Function.update_self ..
  have hother : ∀ u, u ≠ t → s'.tabs u = s.tabs u := fun u hu => Function.update_of_ne hu ..
  obtain ⟨hgeneration, hnil⟩ := h.unused t hnone
  have hknown : Remembers s s' := by
    refine ⟨fun u server' hserver => ?_, fun u => ?_, fun _ hplaced => hplaced, fun _ _ _ _ hread => hread⟩
    · have hu : u ≠ t := by
        rintro rfl
        rw [hnone] at hserver
        cases hserver
      rw [hother u hu, hserver]
    · by_cases hu : u = t
      · rw [hu, hself, hgeneration]
        exact Nat.zero_le _
      · rw [hother u hu]
  have hcall : ∀ call ∈ s.calls, call.tab ≠ t := fun call hmem hsame =>
    (h.dated.calls call hmem).server (hsame ▸ hnone)
  have hdated : s'.Dated := by
    refine Dated.frame hknown (fun u kind => ?_) fun call hmem =>
      ⟨h.dated.calls call hmem, fun _ row hrow => .inl ?_⟩
    · by_cases hu : u = t
      · rw [hu, hself]
        exact ⟨by simp, by simp [ResourcePage.detailRows], by simp, by simp⟩
      · rw [hother u hu]
        exact h.dated.pages u kind
    · rwa [hother _ (hcall call hmem)] at hrow
  refine ⟨⟨hdated, fun u kind => ?_, fun u kind => ?_, fun u hu => ?_, fun u hu => ?_⟩, fun u kind => .stays ?_⟩
  · show s'.UpToDate u kind
    unfold UpToDate
    by_cases hut : u = t
    · rw [hut, hself]
      rintro ⟨⟩
    · rw [hother u hut]
      exact h.shown u kind
  · show ((s'.tabs u).pages kind).trail ≠ [] → ((s'.tabs u).pages kind).loadedFor ≠ none
    by_cases hut : u = t
    · rw [hut, hself]
      exact fun htrail => absurd rfl htrail
    · rw [hother u hut]
      exact h.listed u kind
  · show (s'.tabs u).server ≠ none
    by_cases hut : u = t
    · rw [hut, hself]
      exact Option.some_ne_none server
    · rw [hother u hut]
      rcases List.mem_append.mp hu with hold | hnew
      · exact h.opened u hold
      · exact absurd (List.mem_singleton.mp hnew) hut
  · have hu' : (s'.tabs u).server = none := hu
    show (s'.tabs u).generation = 0 ∧ ∀ kind, ((s'.tabs u).pages kind).trail = []
    by_cases hut : u = t
    · rw [hut, hself] at hu'
      cases hu'
    · rw [hother u hut] at hu' ⊢
      exact h.unused u hu'
  · show ((s'.tabs u).pages kind).trail = _
    by_cases hut : u = t
    · rw [hut, hself]
      exact (hnil kind).symm
    · rw [hother u hut]

theorem Navigable.openDetail {place : Nat × Nat} {opened : KubeKind × KubeRow} (h : s.Navigable)
    (hrow : s.rowAt t kind place = some opened) (hstraight : s.straight (.openDetail t kind place) = true) :
    let page := (s.tabs t).pages kind
    let s' := s.setPage t kind { page with trail := opened :: page.trail, detail := none }
    Steps s s' (.openDetail t kind place) := by
  unfold rowAt at hrow
  simp only at hrow
  split at hrow
  case isFalse => cases hrow
  case isTrue hopen =>
    have hloaded : ((s.tabs t).pages kind).loadedFor = some ((s.tabs t).key kind) := by
      have hcond : ((s.tabs t).pages kind).trail ≠ [] ∨
          ((s.tabs t).pages kind).loadedFor = some ((s.tabs t).key kind) := by
        simpa [straight] using hstraight
      exact hcond.elim (h.shown t kind hopen.2) id
    refine h.setPage (h.dated.openDetail hloaded rfl (mem_shown (List.mem_of_find?_eq_some hrow)))
      (h.opened t hopen.1) (fun _ _ => hloaded) (fun _ => by simp [hloaded]) (.opens place opened rfl ?_)
    rw [pages_setPage, if_pos ⟨rfl, rfl⟩]

theorem Navigable.pop (h : s.Navigable) (event : KubeEvent) (hopen : t ∈ s.openTabs)
    (htrail : ((s.tabs t).pages kind).trail ≠ [])
    (hwhy : ∀ opened, ((s.tabs t).pages kind).trail.head? = some opened →
      (event = .closeDetail t kind ∧ ((s.tabs t).pages kind).visible = true) ∨
        ∃ i, event = .close i ∧ s.Deleted i t kind opened) :
    let page := (s.tabs t).pages kind
    let s' := s.setPage t kind { page with trail := page.trail.tail, detail := none }
    Steps s s' event := by
  refine h.setPage h.dated.popDetail (h.opened t hopen) (fun hvisible _ => h.shown t kind hvisible htrail)
    (fun _ => h.listed t kind htrail) ?_
  · obtain ⟨opened, rest, hcons⟩ := List.exists_cons_of_ne_nil htrail
    have hless : ((s.tabs t).pages kind).trail = opened :: (((s.setPage t kind { (s.tabs t).pages kind with
        trail := ((s.tabs t).pages kind).trail.tail, detail := none }).tabs t).pages kind).trail := by
      rw [pages_setPage, if_pos ⟨rfl, rfl⟩, hcons]
      rfl
    rcases hwhy opened (by rw [hcons]; rfl) with ⟨hback, hvisible⟩ | ⟨i, hclose, hdeleted⟩
    · exact .back opened hback hvisible hless
    · exact .deletes i opened hclose hdeleted hless

theorem Navigable.act {place : Nat × Nat} {shown : KubeKind × KubeRow} (h : s.Navigable)
    (hrow : s.rowAt t kind place = some shown) :
    (s.begin t kind false (.apply shown.1 shown.2 action (s.closing t kind place action)) stage).Dated := by
  unfold rowAt at hrow
  simp only at hrow
  split at hrow
  case isFalse => cases hrow
  case isTrue hopen =>
    refine h.dated.begin (h.opened t hopen.1) ?_
    cases hclosing : s.closing t kind place action with
    | none => trivial
    | some opened =>
      unfold closing at hclosing
      simp only at hclosing
      split at hclosing
      case isFalse => cases hclosing
      case isTrue hdelete =>
        obtain ⟨detail, hdetail, hplace⟩ := (Option.any_eq_true _ _).mp hdelete.2
        obtain ⟨-, top, rest, htrail, hread⟩ := (h.dated.pages t kind).read detail hdetail
        rw [htrail, List.head?_cons] at hclosing
        cases hclosing
        rw [ResourcePage.shown, htrail, hdetail] at hrow
        dsimp only at hrow
        rw [List.cons_append, List.find?_cons, hplace] at hrow
        cases hrow
        exact ⟨hdelete.1, rfl, hread⟩

theorem Navigable.close {reload : Nat} {k : KubeKind} {row : KubeRow} {entry opened : KubeKind × KubeRow}
    (h : s.Navigable) (hold : s.calls[i]? = some call)
    (hstage : call.stage = .reloading reload) (htask : call.task = .apply k row action (some entry))
    (hsame : sameDetail ((s.tabs call.tab).pages call.page) entry = true)
    (htop : ((s.tabs call.tab).pages call.page).trail.head? = some opened) :
    s.Deleted i call.tab call.page opened := by
  obtain ⟨rfl, rfl, hread⟩ : action = .delete ∧ k = entry.1 ∧ s.ReadFor call.tab call.page row entry := by
    have hdated := (h.dated.calls call (List.mem_of_getElem? hold)).task
    rw [htask] at hdated
    exact hdated
  obtain ⟨top, rest, htrail, hentry⟩ := sameDetail_iff.mp hsame
  rw [htrail, List.head?_cons] at htop
  cases htop
  exact ⟨call, row, entry, reload, hold, rfl, rfl, hstage, htask, hread, hentry⟩

theorem Navigable.stays (h : s.Navigable) (hdated : s'.Dated) (hstill : Still s s') : Steps s s' event :=
  ⟨h.still hdated hstill, fun t kind => .stays (hstill.trail t kind)⟩

theorem Steps.still {s'' : KubeClusters} (h : Steps s s' event) (hdated : s''.Dated) (hstill : Still s' s'') :
    Steps s s'' event :=
  ⟨h.navigable.still hdated hstill, fun t kind => (h.trail t kind).still hstill⟩

theorem Steps.load {quiet : Bool} (h : Steps s s' event) (hopen : t ∈ s'.openTabs) :
    Steps s (s'.load t kind quiet) event :=
  h.still (h.navigable.dated.load (h.navigable.opened t hopen)) Still.load

theorem Navigable.load {quiet : Bool} (h : s.Navigable) (hopen : t ∈ s.openTabs) :
    Steps s (s.load t kind quiet) event :=
  h.stays (h.dated.load (h.opened t hopen)) Still.load

theorem Navigable.setStage (h : s.Navigable) (hold : s.calls[i]? = some call)
    (hstage : call.stage.over = false ∨ stage.over = true) : Steps s (s.setStage i call stage) event :=
  h.stays (h.dated.setStage hold hstage) Still.setStage

theorem Navigable.fail (h : s.Navigable) (hold : s.calls[i]? = some call) (hrunning : call.stage.over = false) :
    Steps s (s.fail i call) event :=
  h.stays (h.dated.fail hold hrunning) Still.fail

theorem Navigable.frame (h : s.Navigable) :
    let page : ResourcePage := { (s.tabs t).pages kind with due := ((s.tabs t).pages kind).due - 1 }
    Steps s (s.setPage t kind page) event := by
  intro page
  have hpage : s.PageDated t kind page := (h.dated.pages t kind).items_subset (fun _ hrow => hrow) rfl rfl rfl
  exact h.stays (h.dated.setPage hpage fun row hrow => .inl hrow) (Still.setPage rfl rfl (.inl rfl))

theorem Navigable.run {server : String} (h : s.Navigable) (hold : s.calls[i]? = some call)
    (hsent : call.stage = .sent) : Steps s (s.runCall i call server).1 event := by
  refine h.stays ?_ Still.runCall
  have hset : (s.setStage i call (.ran (s.contexts server))).Dated := h.dated.setStage hold (.inl (by rw [hsent]; rfl))
  unfold KubeClusters.runCall
  simp only
  split
  · exact hset.servers rfl rfl
  · exact hset

theorem Navigable.succeed (h : s.Navigable) (hold : s.calls[i]? = some call) (hrunning : call.stage.over = false)
    (hevent : ∀ j, event ≠ .close j) : Steps s (s.succeed readDouble i call context output) event := by
  by_cases hswitch : ∃ switchedTo, call.task = .switch switchedTo
  · obtain ⟨switchedTo, htask⟩ := hswitch
    have hserver := (h.dated.calls call (List.mem_of_getElem? hold)).server
    have hdone : (s.setStage i call .done).Navigable :=
      h.still (h.dated.setStage hold (.inr rfl)) Still.setStage
    have htold := hdone.notify (t := call.tab) { s.tabs call.tab with
      generation := (s.tabs call.tab).generation + 1 } rfl (Nat.le_succ _) rfl hserver event
    have heq : s.succeed readDouble i call context output = (s.setStage i call .done).setTab call.tab
        { s.tabs call.tab with generation := (s.tabs call.tab).generation + 1 }.notify := by
      rw [KubeClusters.succeed, htask]
    rw [heq]
    exact ⟨htold.navigable, fun t kind => (htold.trail t kind).of_setStage hevent⟩
  · exact h.stays (h.dated.succeed hold hrunning) (Still.succeed fun context htask => hswitch ⟨context, htask⟩)

theorem Navigable.closes {reload : Nat} {k : KubeKind} {row : KubeRow} {entry : KubeKind × KubeRow}
    (h : s.Navigable) (hold : s.calls[i]? = some call) (hstage : call.stage = .reloading reload)
    (htask : call.task = .apply k row action (some entry)) (hopen : call.tab ∈ s.openTabs)
    (htrail : ((s.tabs call.tab).pages call.page).trail ≠ [])
    (hsame : sameDetail ((s.tabs call.tab).pages call.page) entry = true) :
    Steps s ((s.setStage i call .done).closeDetail call.tab call.page) (.close i) := by
  have hpopped := h.pop (.close i) hopen htrail fun opened htop =>
    .inr ⟨i, rfl, h.close hold hstage htask hsame htop⟩
  let popped := s.setPage call.tab call.page { (s.tabs call.tab).pages call.page with
    trail := ((s.tabs call.tab).pages call.page).trail.tail, detail := none }
  have hended : Steps s (popped.setStage i call .done) (.close i) :=
    hpopped.still (hpopped.navigable.dated.setStage hold (.inr rfl)) Still.setStage
  exact hended.load hopen

theorem Navigable.step {changes : List KubeChange} (h : s.Navigable) (hstraight : s.straight event = true)
    (hstep : step readDouble s event = some (s', changes)) : Steps s s' event := by
  cases event with
  | openTab t server =>
    obtain ⟨hnone, rfl, rfl⟩ := ite_some_mk_inj hstep
    exact h.openTab server hnone _
  | closeTab t =>
    cases hstep
    exact h.stays (h.dated.servers rfl rfl) (Still.of_tabs rfl fun _ hopen => List.mem_of_mem_filter hopen)
  | «show» t kind visible =>
    obtain ⟨hopen, rfl, rfl⟩ := ite_some_mk_inj hstep
    exact h.show kind hopen visible _
  | frame t kind =>
    obtain ⟨hopen, rfl, rfl⟩ := ite_some_mk_inj hstep
    split
    · exact h.frame.load hopen.1
    · exact h.frame
  | timer t kind =>
    obtain ⟨hopen, rfl, rfl⟩ := ite_some_mk_inj hstep
    exact h.load hopen.1
  | refresh t kind =>
    obtain ⟨hopen, rfl, rfl⟩ := ite_some_mk_inj hstep
    exact h.load hopen.1
  | toggleNamespace t value =>
    obtain ⟨hopen, rfl, rfl⟩ := ite_some_mk_inj hstep
    exact h.pick hopen _ _
  | setNamespaces t value =>
    obtain ⟨hopen, rfl, rfl⟩ := ite_some_mk_inj hstep
    exact h.pick hopen _ _
  | tick t kind ticked =>
    cases hstep
    refine h.stays ?_ (Still.setPage rfl rfl (.inl rfl))
    exact h.dated.setPage ((h.dated.pages t kind).items_subset (fun _ hrow => hrow) rfl rfl rfl) fun row hrow =>
      .inl hrow
  | openDetail t kind place =>
    simp only [KubeClusters.step, Option.map_eq_some_iff, Prod.mk.injEq] at hstep
    obtain ⟨opened, hrow, rfl, rfl⟩ := hstep
    exact (h.openDetail hrow hstraight).load (rowAt_eq_some hrow).1
  | closeDetail t kind =>
    obtain ⟨⟨hopen, hvisible, htrail⟩, rfl, rfl⟩ := ite_some_mk_inj hstep
    exact (h.pop _ hopen htrail fun _ _ => .inl ⟨rfl, hvisible⟩).load hopen
  | act t kind place action =>
    simp only [KubeClusters.step, Option.map_eq_some_iff, Prod.mk.injEq] at hstep
    obtain ⟨shown, hrow, rfl, rfl⟩ := hstep
    exact h.stays (h.act hrow) Still.begin
  | edit t kind place form =>
    simp only [KubeClusters.step, Option.map_eq_some_iff, Prod.mk.injEq] at hstep
    obtain ⟨shown, hrow, rfl, rfl⟩ := hstep
    exact h.stays (h.dated.begin (h.opened t (rowAt_eq_some hrow).1) trivial) Still.begin
  | applyPicked t kind action =>
    obtain ⟨row, rest, hopen, -, rfl, rfl⟩ := step_applyPicked hstep
    exact h.stays (h.dated.begin (h.opened t hopen) trivial) Still.begin
  | dialog i confirmed =>
    obtain ⟨call, hold, ⟨hasking, -⟩, rfl, rfl⟩ := bind_ite_some_mk_inj hstep
    exact h.setStage hold (.inl (by rw [hasking]; rfl))
  | use t context =>
    obtain ⟨hopen, rfl, rfl⟩ := ite_some_mk_inj hstep
    exact h.stays (h.dated.begin (h.opened t hopen) trivial) Still.begin
  | run i =>
    obtain ⟨call, server, hold, hsent, -, heq⟩ := step_run hstep
    have hran : Steps s (s.runCall i call server).1 (.run i) := h.run hold hsent
    rwa [heq] at hran
  | answer i result =>
    obtain ⟨call, hold, ⟨context, output, hran, rfl, rfl⟩ | ⟨hrunning, -, rfl⟩⟩ := step_answer hstep
    · exact h.succeed hold (by rw [hran]; rfl) fun j heq => by cases heq
    · split
      · exact h.fail hold hrunning
      · exact h.setStage hold (.inl hrunning)
  | resolve i again =>
    obtain ⟨call, hold, hprompting, rfl, rfl⟩ := bind_ite_some_mk_inj hstep
    have hrunning : call.stage.over = false := by rw [hprompting]; rfl
    split
    · exact h.setStage hold (.inl hrunning)
    · exact h.fail hold hrunning
  | close i =>
    obtain ⟨call, reload, k, row, action, entry, hold, hstage, htask, -, rfl⟩ := step_close hstep
    split
    next hshown =>
      have hcond : sameDetail ((s.tabs call.tab).pages call.page) entry = true := by
        simpa [straight, hold, htask, hshown.1] using hstraight
      exact h.closes hold hstage htask hshown.1 hshown.2 hcond
    next => exact h.setStage hold (.inr rfl)

theorem trail_of_pops {changes : List KubeChange} (hstraight : s.straight event = true)
    (hstep : step readDouble s event = some (s', changes)) (hpop : s.pops event = some (t, kind)) :
    ((s.tabs t).pages kind).trail ≠ [] := by
  cases event with
  | closeDetail t kind =>
    cases hpop
    exact (ite_some_mk_inj hstep).1.2.2
  | close i =>
    obtain ⟨call, reload, k, row, action, entry, hold, hstage, htask, -, -⟩ := step_close hstep
    obtain ⟨found, hfound, heq⟩ := Option.map_eq_some_iff.mp hpop
    obtain ⟨hat, hopen⟩ := Option.filter_eq_some_iff.mp hfound
    cases hold.symm.trans hat
    cases heq
    have hsame : sameDetail ((s.tabs call.tab).pages call.page) entry = true := by
      simpa [straight, hold, htask, of_decide_eq_true hopen] using hstraight
    obtain ⟨top, rest, htrail, -⟩ := sameDetail_iff.mp hsame
    rw [htrail]
    exact List.cons_ne_nil top rest
  | _ => cases hpop

theorem Navigable.start (contexts : String → String) : Navigable { contexts := contexts } where
  dated := ⟨fun _ _ => ⟨by simp, by simp [ResourcePage.detailRows], by simp, by simp⟩, by simp⟩
  shown := fun _ _ hvisible => nomatch hvisible
  listed := fun _ _ htrail => absurd rfl htrail
  opened := by simp
  unused := fun _ _ => ⟨rfl, fun _ => rfl⟩

/-- **The trail is what was opened.** The rest is for runs in which also the contexts are switched with care. -/
theorem trail_straight (readDouble : String → String) (contexts : String → String) {changes : List KubeChange}
    {s : KubeClusters}
    (hrun : Reaches (step readDouble) (fun s event => s.straight event = true) { contexts := contexts } changes s) :
    (∀ t kind, ((s.tabs t).pages kind).visible = true → s.ShowsLast t kind) ∧
    (∀ event s' changes', s.straight event = true → step readDouble s event = some (s', changes') →
      (∀ t kind, s.pops event = some (t, kind) → ((s.tabs t).pages kind).trail ≠ []) ∧
      ∀ t kind, TrailStep s s' event t kind) ∧
    (Reaches (step readDouble) (fun s event => s.careful event = true) { contexts := contexts } changes s →
      ∀ t ∈ s.openTabs, ∀ kind, ((s.tabs t).pages kind).visible = true →
        ∀ detail, ((s.tabs t).pages kind).detail = some detail →
          s.switching t = true ∨ detail.row.origin.context = s.contexts detail.row.origin.server) := by
  have hnavigable : s.Navigable := by
    refine hrun.invariant (I := fun _ s => s.Navigable) (Navigable.start contexts) ?_
    rintro h s event s' o hnavigable hstraight hstep
    exact (hnavigable.step hstraight hstep).navigable
  refine ⟨fun t kind => hnavigable.showsLast, fun event s' changes' hstraight hstep => ?_,
    fun hcareful t hopen kind hvisible detail hdetail => ?_⟩
  · exact ⟨fun t kind => trail_of_pops hstraight hstep, (hnavigable.step hstraight hstep).trail⟩
  · have hsound : s.Sound := by
      refine hcareful.invariant (I := fun _ s => s.Sound) (Sound.start contexts) ?_
      rintro h s event s' o hsound hcareful hstep
      exact (hsound.step hcareful hstep).1
    obtain ⟨-, -, -, -, hserver, hnow⟩ := hnavigable.showsLast hvisible detail hdetail
    have hmem : detail.row ∈ ((s.tabs t).pages kind).detailRows := by
      rw [ResourcePage.detailRows, hdetail]
      exact List.mem_append_right _ List.mem_cons_self
    rcases ((hsound.pages t kind).details _ hmem).fresh hopen hnow with hswitching | hcontext
    · exact .inl hswitching
    · exact .inr (hcontext _ hserver)

def openPod (t i j : Nat) : List KubeEvent :=
  [.openDetail t { type := "pods" } (i, 0), .run j,
    .answer j (.ok ((kubeSeparator ++ "\n").intercalate
      ["\x7b\"metadata\":\x7b\"name\":\"web\",\"namespace\":\"shop\"\x7d\x7d", "\x7b\"items\":[]\x7d",
        "\x7b\"items\":[]\x7d", "\x7b\"items\":[]\x7d"]))]

def deleteOpened (t i j : Nat) : List KubeEvent :=
  [.act t { type := "pods" } (i, 0) .delete, .dialog j true, .run j, .answer j (.ok "")]

/-- A pod is opened, deleted and closed. -/
theorem trail_straight_of_delete : ∃ changes s,
    Reaches (step id) (fun s event => s.straight event = true) { contexts := fun _ => "production" } changes s ∧
      ((s.tabs 0).pages { type := "pods" }).detail.isSome = true ∧ s.ShowsLast 0 { type := "pods" } ∧
      ∃ s' changes', step id s (.close 2) = some (s', changes') ∧
        TrailStep s s' (.close 2) 0 { type := "pods" } := by
  obtain ⟨changes, s, hrun, hvisible, hdetail, hstraight, hsome⟩ := Reaches.exists_of_checkedEvents (step id)
    (G := fun s event => s.straight event = true) { contexts := fun _ => "production" }
    (P := fun s => ((s.tabs 0).pages { type := "pods" }).visible = true ∧
      ((s.tabs 0).pages { type := "pods" }).detail.isSome = true ∧ s.straight (.close 2) = true ∧
      (step id s (.close 2)).isSome = true) straight (fun _ _ h => h)
    (.openTab 0 "jump" :: listPods 0 0 ++ openPod 0 0 1 ++ deleteOpened 0 1 2 ++ [.run 3, .answer 3 (.ok "")])
    (by decide +kernel)
  obtain ⟨⟨s', changes'⟩, hstep⟩ := Option.isSome_iff_exists.mp hsome
  obtain ⟨hshows, hsteps, -⟩ := trail_straight id _ hrun
  exact ⟨changes, s, hrun, hdetail, hshows 0 _ hvisible, s', changes', hstep,
    (hsteps _ _ _ hstraight hstep).2 0 { type := "pods" }⟩

/-- Back is pressed while the reload of a delete is under way: then the delete closes a detail that is not there. -/
theorem trail_popped_empty : ∃ changes s,
    Reaches (step id) (fun _ _ => True) { contexts := fun _ => "production" } changes s ∧
      ((s.tabs 0).pages { type := "pods" }).visible = true ∧
      (step id s (.close 2)).isSome = true ∧ s.pops (.close 2) = some (0, { type := "pods" }) ∧
      ((s.tabs 0).pages { type := "pods" }).trail.length = 0 :=
  Reaches.exists_of_checkedEvents (step id) (G := fun _ _ => True) { contexts := fun _ => "production" }
    (P := fun s => ((s.tabs 0).pages { type := "pods" }).visible = true ∧
      (step id s (.close 2)).isSome = true ∧ s.pops (.close 2) = some (0, { type := "pods" }) ∧
      ((s.tabs 0).pages { type := "pods" }).trail.length = 0) (fun _ _ => true) (fun _ _ _ => trivial)
    (.openTab 0 "jump" :: listPods 0 0 ++ openPod 0 0 1 ++ deleteOpened 0 1 2 ++
      [.closeDetail 0 { type := "pods" }, .run 3, .answer 3 (.ok "")])
    (by decide +kernel)

end KubeClusters

end Portix.Kubernetes
