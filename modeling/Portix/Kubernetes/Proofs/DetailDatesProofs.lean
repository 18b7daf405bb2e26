import Portix.Kubernetes.Proofs.KubeClustersInvProofs

/-!
# What the details of a page were read for

What a page holds was read in some generation of its tab: its list in the one it was loaded for, its details not
before that, and the detail that is shown by a call for the last entry of the trail. This needs nothing of the servers.
-/

namespace Portix.Kubernetes

open Lib

/-- The same object, of one kind. -/
def SameEntry (opened opened' : KubeKind × KubeRow) : Prop :=
  opened.1 = opened'.1 ∧ opened.2.place = opened'.2.place

namespace KubeClusters

variable {s s' : KubeClusters} {t i : Nat} {kind : KubeKind} {call : KubeCall}

/-- A row was read by a call of the page for an entry of its trail. -/
def ReadFor (s : KubeClusters) (t : Nat) (kind : KubeKind) (row : KubeRow) (opened : KubeKind × KubeRow) : Prop :=
  ∃ call asked, s.calls[row.place.1]? = some call ∧ call.tab = t ∧ call.page = kind ∧ call.task = .detail asked ∧
    SameEntry asked opened

/-- What a page knows of its rows. -/
structure PageDated (s : KubeClusters) (t : Nat) (kind : KubeKind) (page : ResourcePage) : Prop where
  items : ∀ row ∈ page.items, s.Placed row
  details : ∀ row ∈ page.detailRows, s.Placed row ∧ row.origin.generation ≤ (s.tabs t).generation
  loaded : ∀ key, page.loadedFor = some key → key.generation ≤ (s.tabs t).generation ∧
    (∀ row ∈ page.items, row.origin.generation = key.generation) ∧
    ∀ row ∈ page.detailRows, key.generation ≤ row.origin.generation
  read : ∀ detail, page.detail = some detail → (s.tabs t).server = some detail.row.origin.server ∧
    ∃ opened rest, page.trail = opened :: rest ∧ s.ReadFor t kind detail.row opened

def TaskDated (s : KubeClusters) (call : KubeCall) : KubeTask → Prop
  | .list key => key.generation = call.generation ∧ (call.stage.over = false →
      ∀ row ∈ ((s.tabs call.tab).pages call.page).detailRows, call.generation ≤ row.origin.generation)
  | .detail opened => opened.2.origin.generation ≤ call.generation ∧ s.Placed opened.2
  | .apply kind row action (some opened) =>
    action = .delete ∧ kind = opened.1 ∧ s.ReadFor call.tab call.page row opened
  | .apply _ _ _ none | .bulk _ _ _ | .edit _ _ _ | .save _ _ | .switch _ => True

structure CallDated (s : KubeClusters) (call : KubeCall) : Prop where
  server : (s.tabs call.tab).server ≠ none
  generation : call.generation ≤ (s.tabs call.tab).generation
  task : s.TaskDated call call.task

structure Dated (s : KubeClusters) : Prop where
  pages : ∀ t kind, s.PageDated t kind ((s.tabs t).pages kind)
  calls : ∀ call ∈ s.calls, s.CallDated call

/-- What is known of a tab and of the calls stays known. -/
structure Remembers (s s' : KubeClusters) : Prop where
  server : ∀ t server, (s.tabs t).server = some server → (s'.tabs t).server = some server
  generation : ∀ t, (s.tabs t).generation ≤ (s'.tabs t).generation
  placed : ∀ row, s.Placed row → s'.Placed row
  readFor : ∀ t kind row opened, s.ReadFor t kind row opened → s'.ReadFor t kind row opened

variable {page : ResourcePage}

theorem PageDated.remembers (h : s.PageDated t kind page) (hknown : Remembers s s') : s'.PageDated t kind page where
  items := fun row hrow => hknown.placed row (h.items row hrow)
  details := fun row hrow =>
    ⟨hknown.placed row (h.details row hrow).1, (h.details row hrow).2.trans (hknown.generation t)⟩
  loaded := by
    intro key hkey
    obtain ⟨hle, hrows⟩ := h.loaded key hkey
    exact ⟨hle.trans (hknown.generation t), hrows⟩
  read := by
    intro detail hdetail
    obtain ⟨hserver, opened, rest, htrail, hread⟩ := h.read detail hdetail
    exact ⟨hknown.server _ _ hserver, opened, rest, htrail, hknown.readFor _ _ _ _ hread⟩

theorem CallDated.remembers (h : s.CallDated call) (hknown : Remembers s s')
    (hrows : call.lists = true → ∀ row ∈ ((s'.tabs call.tab).pages call.page).detailRows,
      row ∈ ((s.tabs call.tab).pages call.page).detailRows ∨ call.generation ≤ row.origin.generation) :
    s'.CallDated call := by
  obtain ⟨server, hserver⟩ := Option.ne_none_iff_exists'.mp h.server
  refine ⟨by simp [hknown.server _ _ hserver], h.generation.trans (hknown.generation _), ?_⟩
  have htask := h.task
  cases hcase : call.task with
  | list key =>
    rw [hcase] at htask
    refine ⟨htask.1, fun hrunning row hrow => ?_⟩
    rcases hrows (by simp [KubeCall.lists, hrunning, hcase]) row hrow with hold | hnew
    · exact htask.2 hrunning row hold
    · exact hnew
  | detail opened =>
    rw [hcase] at htask
    exact ⟨htask.1, hknown.placed _ htask.2⟩
  | apply kind row action closing =>
    rw [hcase] at htask
    cases closing with
    | none => trivial
    | some opened => exact ⟨htask.1, htask.2.1, hknown.readFor _ _ _ _ htask.2.2⟩
  | bulk row rest action => trivial
  | edit kind row form => trivial
  | save origin form => trivial
  | switch context => trivial

/-- The rule of frames. -/
theorem Dated.frame (hknown : Remembers s s') (hpages : ∀ t kind, s.PageDated t kind ((s'.tabs t).pages kind))
    (hcalls : ∀ call ∈ s'.calls, s.CallDated call ∧ (call.lists = true →
      ∀ row ∈ ((s'.tabs call.tab).pages call.page).detailRows,
        row ∈ ((s.tabs call.tab).pages call.page).detailRows ∨ call.generation ≤ row.origin.generation)) :
    s'.Dated where
  pages := fun t kind => (hpages t kind).remembers hknown
  calls := fun call hmem => (hcalls call hmem).1.remembers hknown (hcalls call hmem).2

theorem Dated.servers (h : s.Dated) (htabs : s'.tabs = s.tabs) (hsame : s'.calls = s.calls) : s'.Dated := by
  have hknown : Remembers s s' := by
    refine ⟨fun t server hserver => ?_, fun t => ?_, fun row hplaced => ?_, fun t kind row opened hread => ?_⟩
    · rwa [htabs]
    · rw [htabs]
    · rwa [Placed, hsame]
    · rwa [ReadFor, hsame]
  refine Dated.frame hknown (fun t kind => ?_) fun call hmem => ⟨h.calls call (hsame ▸ hmem), fun _ row hrow => ?_⟩
  · rw [htabs]
    exact h.pages t kind
  · rw [htabs] at hrow
    exact .inl hrow

/-- What a call is about stays, as far as its rows are concerned. -/
structure SameCall (old new : KubeCall) : Prop where
  tab : new.tab = old.tab
  page : new.page = old.page
  generation : new.generation = old.generation
  detail : ∀ opened, old.task = .detail opened → new.task = .detail opened

theorem Remembers.setCall {old new : KubeCall} (hold : s.calls[i]? = some old) (hsame : SameCall old new) :
    Remembers s (s.setCall i new) where
  server := fun _ _ hserver => hserver
  generation := fun _ => le_rfl
  placed := fun _ h => h.setCall hold hsame.generation
  readFor := by
    rintro t kind row opened ⟨call, asked, hat, htab, hpage, htask, hentry⟩
    by_cases hplace : row.place.1 = i
    · obtain ⟨hlt, -⟩ := List.getElem?_eq_some_iff.mp hold
      rw [hplace, hold] at hat
      cases hat
      refine ⟨new, asked, ?_, hsame.tab.trans htab, hsame.page.trans hpage, hsame.detail asked htask, hentry⟩
      rw [hplace]
      exact List.getElem?_set_self hlt
    · exact ⟨call, asked, (List.getElem?_set_ne (Ne.symm hplace)).trans hat, htab, hpage, htask, hentry⟩

theorem Dated.setCall {old new : KubeCall} (h : s.Dated) (hold : s.calls[i]? = some old) (hsame : SameCall old new)
    (htask : s.TaskDated new new.task) : (s.setCall i new).Dated := by
  refine Dated.frame (Remembers.setCall hold hsame) h.pages fun call hmem => ⟨?_, fun _ _ hrow => .inl hrow⟩
  rcases List.mem_or_eq_of_mem_set hmem with hother | rfl
  · exact h.calls call hother
  · have hcall := h.calls old (List.mem_of_getElem? hold)
    exact ⟨hsame.tab ▸ hcall.server, hsame.tab ▸ hsame.generation ▸ hcall.generation, htask⟩

theorem Dated.setStage {before stage : KubeStage} (h : s.Dated)
    (hold : s.calls[i]? = some { call with stage := before }) (hover : before.over = false ∨ stage.over = true) :
    (s.setStage i call stage).Dated := by
  refine h.setCall hold ⟨rfl, rfl, rfl, fun _ hdetail => hdetail⟩ ?_
  have htask : s.TaskDated { call with stage := before } call.task :=
    (h.calls _ (List.mem_of_getElem? hold)).task
  show s.TaskDated { call with stage := stage } call.task
  cases hcase : call.task with
  | list key =>
    rw [hcase] at htask
    refine ⟨htask.1, fun hrunning => ?_⟩
    rcases hover with hbefore | hafter
    · exact htask.2 hbefore
    · exact absurd (hafter.symm.trans hrunning) (by simp)
  | detail opened => rwa [hcase] at htask
  | apply kind row action closing =>
    rw [hcase] at htask
    cases closing with
    | none => trivial
    | some opened => exact htask
  | bulk row rest action => trivial
  | edit kind row form => trivial
  | save origin form => trivial
  | switch context => trivial

theorem Remembers.concat (call : KubeCall) : Remembers s { s with calls := s.calls ++ [call] } where
  server := fun _ _ hserver => hserver
  generation := fun _ => le_rfl
  placed := fun _ h => h.concat
  readFor := by
    rintro t kind row opened ⟨reader, asked, hat, hrest⟩
    obtain ⟨hlt, -⟩ := List.getElem?_eq_some_iff.mp hat
    exact ⟨reader, asked, (List.getElem?_append_left hlt).trans hat, hrest⟩

variable {stage : KubeStage}

theorem Dated.begin {quiet : Bool} {task : KubeTask} (h : s.Dated) (hserver : (s.tabs t).server ≠ none)
    (htask : s.TaskDated ⟨t, kind, quiet, (s.tabs t).generation, task, stage⟩ task) :
    (s.begin t kind quiet task stage).Dated := by
  rcases begin_eq s t kind quiet task stage with hsame | hcalls
  · exact hsame.symm ▸ h
  · rw [hcalls]
    refine Dated.frame (Remembers.concat _) h.pages fun call hmem => ⟨?_, fun _ _ hrow => .inl hrow⟩
    rcases List.mem_append.mp hmem with hother | hnew
    · exact h.calls call hother
    · obtain rfl := List.mem_singleton.mp hnew
      exact ⟨hserver, le_rfl, htask⟩

theorem Remembers.of_tabs {tabs : Nat → KubeTab} (hserver : ∀ t, (tabs t).server = (s.tabs t).server)
    (hgeneration : ∀ t, (s.tabs t).generation ≤ (tabs t).generation) : Remembers s { s with tabs := tabs } where
  server := fun t _ hat => (hserver t).trans hat
  generation := hgeneration
  placed := fun _ hplaced => hplaced
  readFor := fun _ _ _ _ hread => hread

theorem Dated.setTab {tab : KubeTab} (h : s.Dated) (hserver : tab.server = (s.tabs t).server)
    (hgeneration : (s.tabs t).generation ≤ tab.generation) (hpages : ∀ kind, s.PageDated t kind (tab.pages kind))
    (hrows : ∀ kind, ∀ row ∈ (tab.pages kind).detailRows, row ∈ ((s.tabs t).pages kind).detailRows ∨
      ∀ call ∈ s.calls, call.tab = t → call.page = kind → call.lists = true → call.generation ≤ row.origin.generation) :
    (s.setTab t tab).Dated := by
  have hself : (s.setTab t tab).tabs t = tab := Function.update_self ..
  have hother : ∀ u, u ≠ t → (s.setTab t tab).tabs u = s.tabs u := fun u hu => Function.update_of_ne hu ..
  refine Dated.frame (Remembers.of_tabs (fun u => ?_) fun u => ?_) (fun u kind => ?_) fun call hmem =>
    ⟨h.calls call hmem, fun hlists row hrow => ?_⟩
  · by_cases hu : u = t
    · rw [hu]
      exact (congrArg KubeTab.server hself).trans hserver
    · exact congrArg KubeTab.server (hother u hu)
  · by_cases hu : u = t
    · rw [hu]
      exact hgeneration.trans_eq (congrArg KubeTab.generation hself).symm
    · exact (congrArg KubeTab.generation (hother u hu)).ge
  · by_cases hu : u = t
    · rw [hu, hself]
      exact hpages kind
    · rw [hother u hu]
      exact h.pages u kind
  · by_cases hu : call.tab = t
    · rw [hu, hself] at hrow
      rcases hrows call.page row hrow with hold | hnew
      · exact .inl (by rw [hu]; exact hold)
      · exact .inr (hnew call hmem hu rfl hlists)
    · rw [hother _ hu] at hrow
      exact .inl hrow

theorem Dated.setPage (h : s.Dated) (hpage : s.PageDated t kind page)
    (hrows : ∀ row ∈ page.detailRows, row ∈ ((s.tabs t).pages kind).detailRows ∨
      ∀ call ∈ s.calls, call.tab = t → call.page = kind → call.lists = true → call.generation ≤ row.origin.generation) :
    (s.setPage t kind page).Dated := by
  refine h.setTab rfl le_rfl (fun other => ?_) (fun other row hrow => ?_)
  · by_cases hother : other = kind
    · subst hother
      simpa [KubeTab.setPage] using hpage
    · simpa [KubeTab.setPage, hother] using h.pages t other
  · by_cases hother : other = kind
    · subst hother
      exact hrows row (by simpa [KubeTab.setPage] using hrow)
    · simp only [KubeTab.setPage, Function.update_of_ne hother] at hrow
      exact .inl hrow

theorem PageDated.items_subset {page page' : ResourcePage} (h : s.PageDated t kind page)
    (hitems : ∀ row ∈ page'.items, row ∈ page.items) (hloaded : page'.loadedFor = page.loadedFor)
    (htrail : page'.trail = page.trail) (hdetail : page'.detail = page.detail) : s.PageDated t kind page' := by
  have hrows : page'.detailRows = page.detailRows := by
    rw [ResourcePage.detailRows, ResourcePage.detailRows, htrail, hdetail]
  refine ⟨fun row hrow => h.items row (hitems row hrow), fun row hrow => h.details row (hrows ▸ hrow),
    fun key hkey => ?_, fun detail hshown => ?_⟩
  · obtain ⟨hle, hall, hdetails⟩ := h.loaded key (hloaded ▸ hkey)
    exact ⟨hle, fun row hrow => hall row (hitems row hrow), fun row hrow => hdetails row (hrows ▸ hrow)⟩
  · rw [htrail]
    exact h.read detail (hdetail ▸ hshown)

theorem PageDated.clear (h : s.PageDated t kind page) (due : Nat) :
    s.PageDated t kind { page with trail := [], detail := none, due := due } where
  items := h.items
  details := by simp [ResourcePage.detailRows]
  loaded := by
    intro key hkey
    obtain ⟨hle, hrows, -⟩ := h.loaded key hkey
    exact ⟨hle, hrows, by simp [ResourcePage.detailRows]⟩
  read := fun _ hdetail => nomatch hdetail

theorem PageDated.detailRows_eq_nil (h : s.PageDated t kind page) (htrail : page.trail = []) :
    page.detailRows = [] := by
  cases hdetail : page.detail with
  | none => simp [ResourcePage.detailRows, htrail, hdetail]
  | some detail =>
    obtain ⟨-, opened, rest, hsome, -⟩ := h.read detail hdetail
    rw [htrail] at hsome
    cases hsome

theorem Dated.load {quiet : Bool} (h : s.Dated) (hserver : (s.tabs t).server ≠ none) : (s.load t kind quiet).Dated := by
  have hpage := h.pages t kind
  unfold KubeClusters.load
  simp only
  split
  next opened trail htrail =>
    obtain ⟨hplaced, hle⟩ := hpage.details opened.2 (mem_detailRows_of_trail (by simp [htrail]))
    exact h.begin hserver ⟨hle, hplaced⟩
  next htrail =>
    have hlist : ∀ s' : KubeClusters, s'.Dated → ((s'.tabs t).pages kind).trail = [] →
        (s'.tabs t).generation = (s.tabs t).generation → (s'.tabs t).server = (s.tabs t).server →
        (s'.begin t kind quiet (.list ((s.tabs t).key kind)) .sent).Dated := by
      intro s' hs hnil hkey hsame
      refine hs.begin (hsame ▸ hserver) ⟨hkey.symm, fun _ row hmem => ?_⟩
      rw [(hs.pages t kind).detailRows_eq_nil hnil] at hmem
      cases hmem
    refine hlist _ ?_ ?_ ?_ ?_
    · split
      · exact h.setPage (hpage.items_subset (by simp) rfl rfl rfl) fun row hrow => .inl hrow
      · exact h
    · split
      · simpa [KubeClusters.setPage, KubeClusters.setTab, KubeTab.setPage] using htrail
      · exact htrail
    · split
      · simp [KubeClusters.setPage, KubeClusters.setTab, KubeTab.setPage]
      · rfl
    · split
      · simp [KubeClusters.setPage, KubeClusters.setTab, KubeTab.setPage]
      · rfl

variable {readDouble : String → String} {context output : String}

theorem Dated.listed {key : PageKey} (h : s.Dated) (hold : s.calls[i]? = some { call with stage := stage })
    (hkey : key.generation = call.generation)
    (hdetails : ∀ row ∈ ((s.tabs call.tab).pages call.page).detailRows, call.generation ≤ row.origin.generation) :
    (s.listed readDouble i call key context output).Dated := by
  have hpage := h.pages call.tab call.page
  have hle : call.generation ≤ (s.tabs call.tab).generation := (h.calls _ (List.mem_of_getElem? hold)).generation
  unfold KubeClusters.listed
  simp only
  split
  · split
    next items server hitems hserver =>
      refine h.setPage ⟨fun row hmem => ?_, hpage.details, ?_, hpage.read⟩ fun row hrow => .inl hrow
      · obtain ⟨horigin, hplace⟩ := mem_rowsAt hmem
        rw [Placed, hplace, hold, horigin]
        rfl
      · rintro _ ⟨⟩
        refine ⟨hkey.trans_le hle, fun row hmem => ?_, fun row hmem => hkey.trans_le (hdetails row hmem)⟩
        rw [(mem_rowsAt hmem).1]
        exact hkey.symm
    next => exact h
  · exact h

variable {opened : KubeKind × KubeRow}

theorem sameDetail_iff :
    sameDetail page opened = true ↔ ∃ top rest, page.trail = top :: rest ∧ SameEntry top opened := by
  unfold sameDetail SameEntry
  cases page.trail with
  | nil => simp
  | cons top rest =>
    rw [List.head?_cons, Option.any_some, decide_eq_true_iff]
    constructor
    · exact fun hentry => ⟨top, rest, rfl, hentry⟩
    · rintro ⟨top', rest', heq, hentry⟩
      cases heq
      exact hentry

theorem SameEntry.symm {opened' : KubeKind × KubeRow} (h : SameEntry opened opened') :
    SameEntry opened' opened := ⟨h.1.symm, h.2.symm⟩

theorem Dated.detailed (h : s.Dated) (hold : s.calls[i]? = some { call with stage := stage })
    (htask : call.task = .detail opened) :
    (s.detailed readDouble i call opened context output).Dated := by
  have hpage := h.pages call.tab call.page
  have hcall := h.calls _ (List.mem_of_getElem? hold)
  obtain ⟨hle, hplaced⟩ : opened.2.origin.generation ≤ call.generation ∧ s.Placed opened.2 := by
    have hdated : s.TaskDated { call with stage := stage } call.task := hcall.task
    rwa [htask] at hdated
  unfold KubeClusters.detailed
  simp only
  split
  next hsame =>
    split
    next detail hdetail =>
      obtain ⟨server, hserver, hparse⟩ := Option.bind_eq_some_iff.mp hdetail
      obtain ⟨top, rest, htrail, hentry⟩ := sameDetail_iff.mp hsame.2
      have hmem : top.2 ∈ ((s.tabs call.tab).pages call.page).detailRows := mem_detailRows_of_trail (by simp [htrail])
      -- The item at the top of the trail is the one that was asked for: it was read in the same generation.
      have htople : top.2.origin.generation ≤ call.generation := by
        have hplaced' := (hpage.details _ hmem).1
        unfold Placed at hplaced hplaced'
        rw [hentry.2, hplaced, Option.some.injEq] at hplaced'
        omega
      have hnew : ∀ row ∈ detail.row :: detail.pods ++ detail.services,
          row.origin = ⟨server, context, call.generation⟩ ∧ row.place.1 = i :=
        fun row hrow => mem_readDetail hparse hrow
      have hrow := hnew detail.row (List.mem_append_left _ List.mem_cons_self)
      refine h.setPage ⟨hpage.items, fun row hrow => ?_, fun key hkey => ?_, ?_⟩ fun row hrow => ?_
      · rcases mem_detailRows_show hrow with hold | hrow
        · exact hpage.details row hold
        · obtain ⟨horigin, hplace⟩ := hnew row hrow
          rw [Placed, hplace, hold, horigin]
          exact ⟨rfl, hcall.generation⟩
      · obtain ⟨hle', hitems, hrows⟩ := hpage.loaded key hkey
        refine ⟨hle', hitems, fun row hrow => ?_⟩
        rcases mem_detailRows_show hrow with hold | hrow
        · exact hrows row hold
        · rw [(hnew row hrow).1]
          exact (hrows _ hmem).trans htople
      · rintro _ ⟨⟩
        refine ⟨by rw [hrow.1]; exact hserver, top, rest, htrail, { call with stage := stage }, opened, ?_, rfl,
          rfl, htask, SameEntry.symm hentry⟩
        rw [hrow.2, hold]
      · rcases mem_detailRows_show hrow with hold | hrow
        · exact .inl hold
        · refine .inr fun other hother htab hkind hlists => ?_
          rw [(hnew row hrow).1]
          refine le_trans ?_ htople
          simp only [KubeCall.lists, Bool.and_eq_true, Bool.not_eq_true'] at hlists
          have hok := (h.calls other hother).task
          cases hcase : other.task with
          | list key =>
            rw [hcase] at hok
            exact hok.2 hlists.1 _ (by rw [htab, hkind]; exact hmem)
          | _ => simp [hcase] at hlists
    next => exact h
  · exact h

theorem Dated.goOn {next : KubeRow} {rest : List KubeRow} {action : RowAction} (h : s.Dated)
    (hold : s.calls[i]? = some call) (hbulk : ∃ row rest action, call.task = .bulk row rest action) :
    (s.goOn i call next rest action).Dated := by
  unfold KubeClusters.goOn
  split
  · refine h.setCall hold ⟨rfl, rfl, rfl, fun opened hdetail => ?_⟩ trivial
    obtain ⟨row, rest, action, hbulk⟩ := hbulk
    rw [hbulk] at hdetail
    cases hdetail
  · exact h.setStage hold (.inr rfl)

theorem Dated.fail (h : s.Dated) (hold : s.calls[i]? = some call) (hrunning : call.stage.over = false) :
    (s.fail i call).Dated := by
  have hdone : (s.setStage i call .done).Dated := h.setStage hold (.inr rfl)
  have hserver := (h.calls call (List.mem_of_getElem? hold)).server
  unfold KubeClusters.fail
  cases htask : call.task with
  | bulk row rest action =>
    cases rest with
    | nil =>
      simp only
      split
      · exact hdone.load hserver
      · exact hdone
    | cons next rest =>
      simp only
      split
      · exact h.goOn hold ⟨row, next :: rest, action, htask⟩
      · exact hdone
  | save origin form => exact h.setStage hold (.inl hrunning)
  | list key => exact hdone
  | detail opened => exact hdone
  | apply kind row action closing => exact hdone
  | edit kind row form => exact hdone
  | switch context => exact hdone

theorem Dated.applied {closing : Option (KubeKind × KubeRow)} (h : s.Dated)
    (hold : s.calls[i]? = some { call with stage := .done }) : (s.applied i call closing).Dated := by
  have hserver : (s.tabs call.tab).server ≠ none := (h.calls _ (List.mem_of_getElem? hold)).server
  have hloaded : (s.load call.tab call.page false).Dated := h.load hserver
  unfold KubeClusters.applied
  simp only
  split
  · exact hloaded.setStage (getElem?_load hold) (.inr rfl)
  · exact hloaded

theorem Dated.openDetail {shown : KubeKind × KubeRow} {key : PageKey} (h : s.Dated)
    (hloaded : ((s.tabs t).pages kind).loadedFor = some key) (hnow : key.generation = (s.tabs t).generation)
    (hrow : shown.2 ∈ ((s.tabs t).pages kind).items ∨ shown.2 ∈ ((s.tabs t).pages kind).detailRows) :
    (s.setPage t kind { (s.tabs t).pages kind with
      trail := shown :: ((s.tabs t).pages kind).trail, detail := none }).Dated := by
  have hpage := h.pages t kind
  obtain ⟨hle, hitems, hdetails⟩ := hpage.loaded key hloaded
  have hown : s.Placed shown.2 ∧ shown.2.origin.generation = (s.tabs t).generation := by
    rcases hrow with hitem | hdetail
    · exact ⟨hpage.items _ hitem, (hitems _ hitem).trans hnow⟩
    · obtain ⟨hplaced, hold⟩ := hpage.details _ hdetail
      exact ⟨hplaced, Nat.le_antisymm hold (hnow ▸ hdetails _ hdetail)⟩
  refine h.setPage ⟨hpage.items, fun row hmem => ?_, fun other hother => ?_, fun _ hdetail => by cases hdetail⟩
    fun row hmem => ?_
  · rcases mem_detailRows_open hmem with rfl | hold
    · exact ⟨hown.1, hown.2.le⟩
    · exact hpage.details row hold
  · cases hloaded.symm.trans hother
    refine ⟨hle, hitems, fun row hmem => ?_⟩
    rcases mem_detailRows_open hmem with rfl | hold
    · exact (hnow.trans hown.2.symm).le
    · exact hdetails row hold
  · rcases mem_detailRows_open hmem with rfl | hold
    · refine .inr fun call hcall htab _ _ => ?_
      rw [hown.2, ← htab]
      exact (h.calls call hcall).generation
    · exact .inl hold

theorem Dated.popDetail (h : s.Dated) : (s.setPage t kind { (s.tabs t).pages kind with
    trail := ((s.tabs t).pages kind).trail.tail, detail := none }).Dated := by
  have hpage := h.pages t kind
  refine h.setPage ⟨hpage.items, fun row hmem => hpage.details row (mem_detailRows_close hmem), fun key hkey => ?_,
    fun _ hdetail => by cases hdetail⟩ fun row hmem => .inl (mem_detailRows_close hmem)
  obtain ⟨hle, hitems, hdetails⟩ := hpage.loaded key hkey
  exact ⟨hle, hitems, fun row hmem => hdetails row (mem_detailRows_close hmem)⟩

theorem PageDated.show (h : s.PageDated t kind page) (visible : Bool) :
    s.PageDated t kind { page with visible := visible } :=
  h.items_subset (fun _ hrow => hrow) rfl rfl rfl

theorem PageDated.sync (tab : KubeTab) (h : s.PageDated t kind (tab.pages kind)) :
    s.PageDated t kind (tab.sync kind) ∧ ∀ row ∈ (tab.sync kind).detailRows, row ∈ (tab.pages kind).detailRows := by
  unfold KubeTab.sync
  simp only
  split
  · exact ⟨h.clear _, by simp [ResourcePage.detailRows]⟩
  · exact ⟨h, fun row hrow => hrow⟩

theorem Dated.notify {tab : KubeTab} (h : s.Dated) (hserver : tab.server = (s.tabs t).server)
    (hgeneration : (s.tabs t).generation ≤ tab.generation) (hpages : tab.pages = (s.tabs t).pages) :
    (s.setTab t tab.notify).Dated := by
  have hsync := fun kind => PageDated.sync tab (by rw [hpages]; exact h.pages t kind)
  refine h.setTab hserver hgeneration (fun kind => (hsync kind).1) fun kind row hrow => .inl ?_
  rw [← hpages]
  exact (hsync kind).2 row hrow

theorem Dated.succeed (h : s.Dated) (hold : s.calls[i]? = some call) (hrunning : call.stage.over = false) :
    (s.succeed readDouble i call context output).Dated := by
  have hdone : (s.setStage i call .done).Dated := h.setStage hold (.inr rfl)
  obtain ⟨hlt, -⟩ := List.getElem?_eq_some_iff.mp hold
  have hended : (s.setStage i call .done).calls[i]? = some { call with stage := .done } := List.getElem?_set_self hlt
  have hserver := (h.calls call (List.mem_of_getElem? hold)).server
  have hcall := (h.calls call (List.mem_of_getElem? hold)).task
  unfold KubeClusters.succeed
  cases htask : call.task with
  | list key =>
    rw [htask] at hcall
    exact hdone.listed hended hcall.1 (hcall.2 hrunning)
  | detail opened => exact hdone.detailed hended htask
  | apply kind row action closing =>
    simp only
    split
    · exact hdone.applied hended
    · exact hdone
  | save origin form =>
    simp only
    split
    · exact hdone.load hserver
    · exact hdone
  | bulk row rest action =>
    simp only
    split
    · have hpage := h.pages call.tab call.page
      have hticked : (s.setPage call.tab call.page { (s.tabs call.tab).pages call.page with
          ticked := ((s.tabs call.tab).pages call.page).ticked.filter (· ≠ pickKey row) }).Dated :=
        h.setPage (hpage.items_subset (fun _ hrow => hrow) rfl rfl rfl) fun row hrow => .inl hrow
      cases rest with
      | nil =>
        refine (hticked.setStage hold (.inr rfl)).load ?_
        simpa [KubeClusters.setStage, KubeClusters.setCall, KubeClusters.setPage, KubeClusters.setTab,
          KubeTab.setPage] using hserver
      | cons next rest => exact hticked.goOn hold ⟨row, next :: rest, action, htask⟩
    · exact hdone
  | edit kind row form =>
    simp only
    split
    · split
      · refine h.setCall hold ⟨rfl, rfl, rfl, fun opened hdetail => ?_⟩ trivial
        rw [htask] at hdetail
        cases hdetail
      · exact hdone
    · exact hdone
  | switch switchedTo => exact hdone.notify rfl (Nat.le_succ _) rfl

end KubeClusters

end Portix.Kubernetes
