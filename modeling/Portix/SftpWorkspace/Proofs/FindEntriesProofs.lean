import Mathlib.Data.List.Perm.Basic
import Mathlib.Data.List.Sort
import Portix.SftpWorkspace.FindEntries

/-!
# Proofs: remote search

The folders visited and those in the queue are never more than 600, and each turn visits one more or comes to an
empty queue. Where no folder has the path of another and there is room for all, what was visited, what is below the
folders of the batch and what is below those of the queue are together the folders to be searched (`Whole`).
-/

namespace Portix.SftpWorkspace.Find

open Lib

variable {ε : Type} {platform : TextPlatform} {list : String → Except ε (List RemoteFileEntry)}
  {basePath query : String} {maxResults : Nat}

theorem isHit_eq (hline : '\n' ∉ query.toList) (entry : RemoteFileEntry) :
    isHit platform query entry = matchesQuery platform query entry := by
  unfold isHit matchesQuery containsText
  rw [platform.toLowerCase_lines, Bool.eq_iff_iff, Bool.or_eq_true, decide_eq_true_iff, decide_eq_true_iff,
    decide_eq_true_iff, String.toList_append, String.toList_append, List.append_assoc]
  exact infix_append_cons_iff hline

section Entries

variable {results children entries : List RemoteFileEntry}

theorem length_searchEntries (hle : results.length ≤ maxResults) :
    (searchEntries platform basePath query maxResults results children entries).1.length ≤ maxResults := by
  induction entries generalizing results children with
  | nil => exact hle
  | cons entry entries ih =>
    unfold searchEntries
    split
    case isTrue => exact hle
    case isFalse hroom =>
      apply ih
      split
      · rw [List.length_append, List.length_singleton]
        omega
      · exact hle

theorem mem_searchEntries {entry : RemoteFileEntry}
    (hmem : entry ∈ (searchEntries platform basePath query maxResults results children entries).1) :
    entry ∈ results ∨ (entry ∈ entries ∧ isHit platform query entry = true) := by
  induction entries generalizing results children with
  | nil => exact .inl hmem
  | cons first entries ih =>
    unfold searchEntries at hmem
    split at hmem
    case isTrue => exact .inl hmem
    case isFalse =>
      rcases ih hmem with hold | ⟨hrest, hhit⟩
      · split at hold
        case isTrue hhit =>
          rcases List.mem_append.mp hold with hold | hnew
          · exact .inl hold
          · obtain rfl := List.mem_singleton.mp hnew
            exact .inr ⟨List.mem_cons_self, hhit⟩
        case isFalse => exact .inl hold
      · exact .inr ⟨List.mem_cons_of_mem _ hrest, hhit⟩

theorem mem_children_searchEntries {entry : RemoteFileEntry}
    (hmem : entry ∈ (searchEntries platform basePath query maxResults results children entries).2) :
    entry ∈ children ∨ (entry ∈ entries ∧ isSearched basePath entry = true) := by
  induction entries generalizing results children with
  | nil => exact .inl hmem
  | cons first entries ih =>
    unfold searchEntries at hmem
    split at hmem
    case isTrue => exact .inl hmem
    case isFalse =>
      rcases ih hmem with hold | ⟨hrest, hsearched⟩
      · split at hold
        case isTrue hsearched =>
          rcases List.mem_append.mp hold with hold | hnew
          · exact .inl hold
          · obtain rfl := List.mem_singleton.mp hnew
            exact .inr ⟨List.mem_cons_self, hsearched⟩
        case isFalse => exact .inl hold
      · exact .inr ⟨List.mem_cons_of_mem _ hrest, hsearched⟩

theorem searchEntries_eq (hroom : results.length + (entries.filter (isHit platform query)).length < maxResults) :
    searchEntries platform basePath query maxResults results children entries =
      (results ++ entries.filter (isHit platform query), children ++ entries.filter (isSearched basePath)) := by
  induction entries generalizing results children with
  | nil => simp [searchEntries]
  | cons entry entries ih =>
    have hless : ¬ maxResults ≤ results.length := by omega
    unfold searchEntries
    rw [if_neg hless]
    by_cases hhit : isHit platform query entry = true
    · rw [List.filter_cons_of_pos hhit, List.length_cons] at hroom
      rw [if_pos hhit, List.filter_cons_of_pos hhit, ih (by rw [List.length_append, List.length_singleton]; omega)]
      by_cases hsearched : isSearched basePath entry = true
      · rw [if_pos hsearched, List.filter_cons_of_pos hsearched]
        simp
      · rw [if_neg hsearched, List.filter_cons_of_neg hsearched]
        simp
    · rw [List.filter_cons_of_neg hhit] at hroom
      rw [if_neg hhit, List.filter_cons_of_neg hhit, ih hroom]
      by_cases hsearched : isSearched basePath entry = true
      · rw [if_pos hsearched, List.filter_cons_of_pos hsearched]
        simp
      · rw [if_neg hsearched, List.filter_cons_of_neg hsearched]

end Entries

theorem enqueue_spec (visited : List String) (depth : Nat) (queue : List RemoteSearchDirectory)
    (directories : List RemoteFileEntry) : ∃ taken, taken <+: directories ∧ enqueue visited depth queue directories =
        queue ++ taken.map (fun directory => ⟨directory.path, depth + 1⟩) ∧
      (visited.length + queue.length ≤ 600 → visited.length + queue.length + taken.length ≤ 600) ∧
      (visited.length + queue.length + directories.length ≤ 600 → taken = directories) := by
  induction directories generalizing queue with
  | nil => exact ⟨[], List.nil_prefix, by simp [enqueue], id, fun _ => rfl⟩
  | cons directory directories ih =>
    unfold enqueue
    split
    case isTrue hfull =>
      refine ⟨[], List.nil_prefix, by simp, id, fun hroom => ?_⟩
      rw [List.length_cons] at hroom
      unfold maxRemoteSearchDirectories at hfull
      omega
    case isFalse hfree =>
      obtain ⟨taken, hpre, heq, hcount, hall⟩ := ih (queue ++ [⟨directory.path, depth + 1⟩])
      unfold maxRemoteSearchDirectories at hfree
      rw [List.length_append, List.length_singleton] at hcount hall
      refine ⟨directory :: taken, ?_, ?_, ?_, ?_⟩
      · exact List.cons_prefix_cons.mpr ⟨rfl, hpre⟩
      · rw [heq]
        simp
      · intro hle
        rw [List.length_cons]
        omega
      · intro hroom
        rw [List.length_cons] at hroom
        rw [hall (by omega)]

structure Batch (batch : List RemoteSearchDirectory) (visited : List String)
    (queue new rest : List RemoteSearchDirectory) : Prop where
  count : new.length + rest.length ≤ queue.length
  nodup : visited.Nodup → (visited ++ new.map RemoteSearchDirectory.path).Nodup
  taken : ∀ dir ∈ new, dir.depth ≤ 12 ∧ ∃ current ∈ queue, dir = ⟨normalizedPath current.path, current.depth⟩
  left : ∀ dir ∈ rest, dir ∈ queue
  empty : batch.length < batchSize → new = [] → rest = []

namespace Batch

variable {batch queue new rest : List RemoteSearchDirectory} {visited : List String} {current : RemoteSearchDirectory}

theorem drop (hbatch : Batch batch visited queue new rest) : Batch batch visited (current :: queue) new rest where
  count := Nat.le_succ_of_le hbatch.count
  nodup := hbatch.nodup
  taken dir hdir := by
    obtain ⟨hdepth, other, hother, heq⟩ := hbatch.taken dir hdir
    exact ⟨hdepth, other, List.mem_cons_of_mem _ hother, heq⟩
  left dir hdir := List.mem_cons_of_mem _ (hbatch.left dir hdir)
  empty := hbatch.empty

theorem take (hbatch : Batch (batch ++ [⟨normalizedPath current.path, current.depth⟩])
      (visited ++ [normalizedPath current.path]) queue new rest) (hdepth : current.depth ≤ 12)
    (hnew : normalizedPath current.path ∉ visited) :
    Batch batch visited (current :: queue) (⟨normalizedPath current.path, current.depth⟩ :: new) rest where
  count := by
    have hcount := hbatch.count
    rw [List.length_cons, List.length_cons]
    omega
  nodup hnodup := by
    have hone : (visited ++ [normalizedPath current.path]).Nodup :=
      List.nodup_append.mpr ⟨hnodup, List.nodup_singleton _, fun path hpath other hother => by
        obtain rfl := List.mem_singleton.mp hother
        rintro rfl
        exact hnew hpath⟩
    have hall := hbatch.nodup hone
    rwa [List.append_assoc] at hall
  taken dir hdir := by
    rcases List.mem_cons.mp hdir with rfl | hdir
    · exact ⟨hdepth, current, List.mem_cons_self, rfl⟩
    · obtain ⟨hdepth', other, hother, heq⟩ := hbatch.taken dir hdir
      exact ⟨hdepth', other, List.mem_cons_of_mem _ hother, heq⟩
  left dir hdir := List.mem_cons_of_mem _ (hbatch.left dir hdir)
  empty _ hnone := by cases hnone

end Batch

theorem takeBatch_spec (batch : List RemoteSearchDirectory) (visited : List String)
    (queue : List RemoteSearchDirectory) : ∃ new rest,
    takeBatch batch visited queue = (batch ++ new, visited ++ new.map RemoteSearchDirectory.path, rest) ∧
      Batch batch visited queue new rest := by
  induction queue generalizing batch visited with
  | nil =>
    refine ⟨[], [], by simp [takeBatch], ⟨Nat.le_refl 0, by simp, ?_, ?_, fun _ _ => rfl⟩⟩
    · rintro dir ⟨⟩
    · rintro dir ⟨⟩
  | cons current queue ih =>
    unfold takeBatch
    split
    case isTrue =>
      split
      case isTrue =>
        obtain ⟨new, rest, heq, hbatch⟩ := ih batch visited
        exact ⟨new, rest, heq, hbatch.drop⟩
      case isFalse hdepth =>
        split
        case isTrue =>
          obtain ⟨new, rest, heq, hbatch⟩ := ih batch visited
          exact ⟨new, rest, heq, hbatch.drop⟩
        case isFalse hnew =>
          obtain ⟨new, rest, heq, hbatch⟩ := ih (batch ++ [⟨normalizedPath current.path, current.depth⟩])
            (visited ++ [normalizedPath current.path])
          refine ⟨_, rest, ?_, hbatch.take (Nat.le_of_not_lt hdepth) hnew⟩
          rw [heq]
          simp
    case isFalse hfull =>
      refine ⟨[], current :: queue, by simp, ⟨by simp, by simp, ?_, fun dir hdir => hdir, ?_⟩⟩
      · rintro dir ⟨⟩
      · intro hless
        exact absurd hless hfull

variable (list) in
theorem listForFind_cases (dir : RemoteSearchDirectory) :
    (listForFind list dir.path (dir.depth = 0) = .ok (entriesOf list dir.path) ∧
      (dir.depth = 0 → ∃ entries, list dir.path = .ok entries)) ∨
    (dir.depth = 0 ∧ ∃ error, list dir.path = .error error ∧
      listForFind list dir.path (dir.depth = 0) = .error error) := by
  unfold listForFind entriesOf
  cases hlist : list dir.path with
  | ok entries => exact .inl ⟨rfl, fun _ => ⟨entries, rfl⟩⟩
  | error error =>
    by_cases hbase : dir.depth = 0
    · exact .inr ⟨hbase, error, rfl, by simp [hbase]⟩
    · exact .inl ⟨by simp [hbase], fun hdepth => absurd hdepth hbase⟩

variable (list) in
theorem mapM_listForFind (batch : List RemoteSearchDirectory) :
    (batch.mapM (fun dir => (listForFind list dir.path (dir.depth = 0)).map fun entries => (dir, entries)) =
        .ok (batch.map fun dir => (dir, entriesOf list dir.path)) ∧
      ∀ dir ∈ batch, dir.depth = 0 → ∃ entries, list dir.path = .ok entries) ∨
    ∃ dir ∈ batch, dir.depth = 0 ∧ ∃ error, list dir.path = .error error ∧
      batch.mapM (fun dir => (listForFind list dir.path (dir.depth = 0)).map fun entries => (dir, entries)) =
        .error error := by
  induction batch with
  | nil =>
    refine .inl ⟨rfl, ?_⟩
    rintro dir ⟨⟩
  | cons dir batch ih =>
    rw [List.mapM_cons]
    rcases listForFind_cases list dir with ⟨hok, hbase⟩ | ⟨hdepth, error, herror, hfail⟩
    · rw [hok]
      rcases ih with ⟨hall, hbases⟩ | ⟨other, hother, hdepth, error, herror, hfail⟩
      · rw [hall]
        refine .inl ⟨rfl, ?_⟩
        intro other hother
        rcases List.mem_cons.mp hother with rfl | hother
        · exact hbase
        · exact hbases other hother
      · rw [hfail]
        exact .inr ⟨other, List.mem_cons_of_mem _ hother, hdepth, error, herror, rfl⟩
    · rw [hfail]
      exact .inr ⟨dir, List.mem_cons_self, hdepth, error, herror, rfl⟩

variable (platform list basePath query maxResults) in
/-- The folders visited are those listed; with those of the queue they are at most 600 and as deep as they are; and the
results match. -/
structure Going (s : Search) : Prop where
  visited_eq : s.visited = s.listed.map RemoteSearchDirectory.path
  nodup : s.visited.Nodup
  count : s.visited.length + s.queue.length ≤ 600
  results_le : s.results.length ≤ maxResults
  listed_depth : ∀ dir ∈ s.listed, dir.depth ≤ 12
  listed_at : ∀ dir ∈ s.listed,
    AtLevel (foldersIn list basePath normalizedPath) (normalizedPath basePath) dir.depth dir.path
  queue_at : ∀ dir ∈ s.queue,
    AtLevel (foldersIn list basePath normalizedPath) (normalizedPath basePath) dir.depth (normalizedPath dir.path)
  results_hit : ∀ entry ∈ s.results, isHit platform query entry = true ∧
    ∃ dir ∈ s.listed, entry ∈ entriesOf list dir.path

variable {s s' : Search}

theorem Going.searchDirectory (hgoing : Going platform list basePath query maxResults s) {dir : RemoteSearchDirectory}
    (hdir : dir ∈ s.listed) : Going platform list basePath query maxResults
      (searchDirectory platform basePath query maxResults s dir (entriesOf list dir.path)) := by
  unfold Find.searchDirectory
  simp only
  obtain ⟨taken, hpre, hqueue, hcount, -⟩ := enqueue_spec s.visited dir.depth s.queue
    (platform.sort
      (fun a b => compare (remoteSearchPriority platform a query) (remoteSearchPriority platform b query))
      (searchEntries platform basePath query maxResults s.results [] (entriesOf list dir.path)).2)
  rw [hqueue]
  refine ⟨hgoing.visited_eq, hgoing.nodup, ?_, length_searchEntries hgoing.results_le, hgoing.listed_depth,
    hgoing.listed_at, ?_, ?_⟩
  · have hle := hcount hgoing.count
    show s.visited.length + (s.queue ++ List.map _ taken).length ≤ 600
    rw [List.length_append, List.length_map]
    omega
  · intro current hcurrent
    rcases List.mem_append.mp hcurrent with hold | hnew
    · exact hgoing.queue_at current hold
    · obtain ⟨entry, hentry, rfl⟩ := List.mem_map.mp hnew
      have hchild := (platform.sort_perm _ _).mem_iff.mp (hpre.subset hentry)
      rcases mem_children_searchEntries hchild with hnone | ⟨hmem, hsearched⟩
      · cases hnone
      · refine .child (hgoing.listed_at dir hdir) ?_
        exact List.mem_map_of_mem (f := fun entry : RemoteFileEntry => normalizedPath entry.path)
          (List.mem_filter.mpr ⟨hmem, hsearched⟩)
  · intro entry hentry
    rcases mem_searchEntries hentry with hold | ⟨hmem, hhit⟩
    · exact hgoing.results_hit entry hold
    · exact ⟨hhit, dir, hdir, hmem⟩

theorem searchBatch_visited (batchResults : List (RemoteSearchDirectory × List RemoteFileEntry)) :
    (searchBatch platform basePath query maxResults s batchResults).visited = s.visited := by
  induction batchResults generalizing s with
  | nil => rfl
  | cons first batchResults ih =>
    unfold searchBatch
    split
    case isTrue => rfl
    case isFalse => exact ih

theorem Going.searchBatch (hgoing : Going platform list basePath query maxResults s)
    {batch : List RemoteSearchDirectory} (hbatch : ∀ dir ∈ batch, dir ∈ s.listed) :
    Going platform list basePath query maxResults (searchBatch platform basePath query maxResults s
      (batch.map fun dir => (dir, entriesOf list dir.path))) := by
  induction batch generalizing s with
  | nil => exact hgoing
  | cons dir batch ih =>
    rw [List.map_cons]
    unfold Find.searchBatch
    split
    case isTrue => exact hgoing
    case isFalse =>
      refine ih (hgoing.searchDirectory (hbatch dir List.mem_cons_self)) ?_
      intro other hother
      exact hbatch other (List.mem_cons_of_mem _ hother)

def Search.took (s : Search) (new rest : List RemoteSearchDirectory) : Search :=
  { s with
    visited := s.visited ++ new.map RemoteSearchDirectory.path
    queue := rest
    listed := s.listed ++ new }

theorem Going.took (hgoing : Going platform list basePath query maxResults s) {new rest : List RemoteSearchDirectory}
    (hbatch : Batch [] s.visited s.queue new rest) :
    Going platform list basePath query maxResults (s.took new rest) := by
  refine ⟨?_, hbatch.nodup hgoing.nodup, ?_, hgoing.results_le, ?_, ?_, ?_, ?_⟩
  · show s.visited ++ _ = (s.listed ++ new).map RemoteSearchDirectory.path
    rw [List.map_append, hgoing.visited_eq]
  · have hcount := hbatch.count
    have hle := hgoing.count
    show (s.visited ++ new.map RemoteSearchDirectory.path).length + rest.length ≤ 600
    rw [List.length_append, List.length_map]
    omega
  · intro dir hdir
    rcases List.mem_append.mp hdir with hold | hnew
    · exact hgoing.listed_depth dir hold
    · exact (hbatch.taken dir hnew).1
  · intro dir hdir
    rcases List.mem_append.mp hdir with hold | hnew
    · exact hgoing.listed_at dir hold
    · obtain ⟨-, current, hcurrent, rfl⟩ := hbatch.taken dir hnew
      exact hgoing.queue_at current hcurrent
  · intro dir hdir
    exact hgoing.queue_at dir (hbatch.left dir hdir)
  · intro entry hentry
    obtain ⟨hhit, dir, hdir, hmem⟩ := hgoing.results_hit entry hentry
    exact ⟨hhit, dir, List.mem_append_left _ hdir, hmem⟩

variable (platform list basePath query maxResults) in
theorem turn_cases (s : Search) : ((s.queue = [] ∨ maxResults ≤ s.results.length ∨ 600 ≤ s.visited.length) ∧
      turn platform list basePath query maxResults s = .done ⟨s.listed, .ok s.results⟩) ∨
    (s.queue ≠ [] ∧ s.results.length < maxResults ∧ s.visited.length < 600 ∧ ∃ new rest,
      takeBatch [] s.visited s.queue = (new, s.visited ++ new.map RemoteSearchDirectory.path, rest) ∧
      Batch [] s.visited s.queue new rest ∧
      ((new = [] ∧ turn platform list basePath query maxResults s = .next { s with queue := [] }) ∨
        (new ≠ [] ∧ (∀ dir ∈ new, dir.depth = 0 → ∃ entries, list dir.path = .ok entries) ∧
          turn platform list basePath query maxResults s = .next (searchBatch platform basePath query maxResults
            (s.took new rest) (new.map fun dir => (dir, entriesOf list dir.path)))) ∨
        ∃ dir ∈ new, dir.depth = 0 ∧ ∃ error, list dir.path = .error error ∧
          turn platform list basePath query maxResults s = .done ⟨s.listed ++ new, .error error⟩)) := by
  obtain ⟨new, rest, htake, hbatch⟩ := takeBatch_spec [] s.visited s.queue
  rw [List.nil_append] at htake
  unfold turn
  simp only [htake]
  split
  case isTrue hstop => exact .inl ⟨hstop, rfl⟩
  case isFalse hgo =>
    rw [not_or, not_or, Nat.not_le, Nat.not_le] at hgo
    refine .inr ⟨hgo.1, hgo.2.1, hgo.2.2, new, rest, rfl, hbatch, ?_⟩
    by_cases hnew : new = []
    · refine .inl ⟨hnew, ?_⟩
      rw [if_pos hnew, hbatch.empty (by decide) hnew, hnew, List.map_nil, List.append_nil]
    · rw [if_neg hnew]
      rcases mapM_listForFind list new with ⟨hall, hbase⟩ | ⟨dir, hdir, hdepth, error, herror, hfail⟩
      · rw [hall]
        exact .inr (.inl ⟨hnew, hbase, rfl⟩)
      · rw [hfail]
        exact .inr (.inr ⟨dir, hdir, hdepth, error, herror, rfl⟩)

/-- What is left to do at most: folders to visit, and one turn for the end. -/
def variant (s : Search) : Nat := if s.queue = [] then 0 else 601 - s.visited.length

theorem Going.keep (hgoing : Going platform list basePath query maxResults s)
    (hturn : turn platform list basePath query maxResults s = .next s') :
    Going platform list basePath query maxResults s' ∧ variant s' < variant s := by
  rcases turn_cases platform list basePath query maxResults s with ⟨-, hdone⟩ | ⟨hqueue, -, hvisited, new, rest, -,
    hbatch, hcases⟩
  · rw [hdone] at hturn
    cases hturn
  · have hpos : variant s = 601 - s.visited.length := if_neg hqueue
    rcases hcases with ⟨-, hnext⟩ | ⟨hnew, -, hnext⟩ | ⟨dir, -, -, error, -, hdone⟩
    · rw [hnext] at hturn
      cases hturn
      refine ⟨⟨hgoing.visited_eq, hgoing.nodup, ?_, hgoing.results_le, hgoing.listed_depth, hgoing.listed_at,
        fun dir hdir => (List.not_mem_nil hdir).elim, hgoing.results_hit⟩, ?_⟩
      · show s.visited.length + 0 ≤ 600
        omega
      · have hzero : variant { s with queue := [] } = 0 := if_pos rfl
        omega
    · rw [hnext] at hturn
      cases hturn
      refine ⟨(hgoing.took hbatch).searchBatch fun dir hdir => List.mem_append_right _ hdir, ?_⟩
      have hmore : (s.took new rest).visited.length = s.visited.length + new.length := by
        show (s.visited ++ new.map RemoteSearchDirectory.path).length = _
        rw [List.length_append, List.length_map]
      have hone : 0 < new.length := List.length_pos_iff.mpr hnew
      unfold variant at hpos ⊢
      rw [searchBatch_visited, hmore, hpos]
      split
      · omega
      · omega
    · rw [hdone] at hturn
      cases hturn

theorem Going.done {found : Found ε} (hgoing : Going platform list basePath query maxResults s)
    (hturn : turn platform list basePath query maxResults s = .done found) :
    Bounded list basePath maxResults found ∧
      (∀ error, found.result = .error error → list (normalizedPath basePath) = .error error) ∧
      ∀ entries, found.result = .ok entries → ∀ entry ∈ entries, isHit platform query entry = true ∧
        ∃ dir ∈ found.listed, entry ∈ entriesOf list dir.path := by
  have hlisted : ∀ {s : Search}, Going platform list basePath query maxResults s → s.listed.length ≤ 600 := by
    intro s hgoing
    have hcount := hgoing.count
    rw [hgoing.visited_eq, List.length_map] at hcount
    omega
  rcases turn_cases platform list basePath query maxResults s with
    ⟨-, hdone⟩ | ⟨-, -, -, new, rest, -, hbatch, ⟨-, hnext⟩ | ⟨-, -, hnext⟩ | ⟨dir, hdir, hdepth, error, herror, hdone⟩⟩
  · rw [hdone] at hturn
    cases hturn
    refine ⟨⟨hlisted hgoing, ?_, hgoing.listed_depth, hgoing.listed_at, ?_⟩, ?_, ?_⟩
    · rw [← hgoing.visited_eq]
      exact hgoing.nodup
    · rintro entries ⟨⟩
      exact hgoing.results_le
    · rintro error ⟨⟩
    · rintro entries ⟨⟩
      exact hgoing.results_hit
  · rw [hnext] at hturn
    cases hturn
  · rw [hnext] at hturn
    cases hturn
  · rw [hdone] at hturn
    cases hturn
    have htook := hgoing.took hbatch
    refine ⟨⟨hlisted htook, ?_, htook.listed_depth, htook.listed_at, ?_⟩, ?_, ?_⟩
    · have hnodup := htook.nodup
      rwa [htook.visited_eq] at hnodup
    · rintro entries ⟨⟩
    · intro error' herror'
      cases herror'
      have hat := htook.listed_at dir (List.mem_append_right _ hdir)
      rw [hdepth] at hat
      have hbase : dir.path = normalizedPath basePath := by
        generalize dir.path = path at hat
        cases hat
        rfl
      rw [← hbase]
      exact herror
    · rintro entries ⟨⟩

theorem going_start : Going platform list basePath query maxResults { queue := [⟨basePath, 0⟩] } := by
  refine ⟨rfl, List.nodup_nil, by simp, Nat.zero_le _, ?_, ?_, ?_, ?_⟩
  · rintro dir ⟨⟩
  · rintro dir ⟨⟩
  · intro dir hdir
    obtain rfl := List.mem_singleton.mp hdir
    exact .root
  · rintro entry ⟨⟩

theorem turn_ne_waits (s : Search) : turn platform list basePath query maxResults s ≠ .waits := by
  intro hwaits
  rcases turn_cases platform list basePath query maxResults s with
    ⟨-, hdone⟩ | ⟨-, -, -, new, rest, -, -, ⟨-, hnext⟩ | ⟨-, -, hnext⟩ | ⟨dir, -, -, error, -, hdone⟩⟩
  · cases hdone.symm.trans hwaits
  · cases hnext.symm.trans hwaits
  · cases hnext.symm.trans hwaits
  · cases hdone.symm.trans hwaits

theorem exists_finds : ∃ found, Finds platform list basePath query maxResults found := by
  have hvariant : variant { queue := [⟨basePath, 0⟩] } < 602 := by
    show (if _ = [] then 0 else 601 - 0) < 602
    rw [if_neg (List.cons_ne_nil _ _)]
    omega
  obtain ⟨found, hdone⟩ := exists_done_of_variant (I := Going platform list basePath query maxResults) variant
    (fun s _ => turn_ne_waits s) (fun s s' => Going.keep) 602 going_start hvariant
  exact ⟨found, 602, hdone⟩

section Room

variable (list basePath)

def below (dir : RemoteSearchDirectory) : List String :=
  if dir.depth < 12 then
    (foldersIn list basePath normalizedPath dir.path).flatMap
      (within (foldersIn list basePath normalizedPath) (11 - dir.depth))
  else []

def pending (dir : RemoteSearchDirectory) : List String :=
  if dir.depth ≤ 12 then
    within (foldersIn list basePath normalizedPath) (12 - dir.depth) (normalizedPath dir.path)
  else []

variable (platform query) in
def hitsIn (path : String) : List RemoteFileEntry := (entriesOf list path).filter (isHit platform query)

def allFolders : List String := within (foldersIn list basePath normalizedPath) 12 (normalizedPath basePath)

variable {list basePath}

theorem pending_eq_cons {dir : RemoteSearchDirectory} (hdepth : dir.depth ≤ 12) : pending list basePath dir =
      normalizedPath dir.path :: below list basePath ⟨normalizedPath dir.path, dir.depth⟩ := by
  unfold pending below
  rw [if_pos hdepth]
  by_cases hless : dir.depth < 12
  · have hsucc : 12 - dir.depth = (11 - dir.depth) + 1 := by omega
    rw [if_pos hless, hsucc, within_succ]
  · have hzero : 12 - dir.depth = 0 := by omega
    rw [if_neg hless, hzero]
    rfl

theorem length_pending_pos {dir : RemoteSearchDirectory} (hdepth : dir.depth ≤ 12) :
    0 < (pending list basePath dir).length := by
  rw [pending_eq_cons hdepth]
  exact Nat.succ_pos _

variable (platform list basePath query) in
/-- What was visited, what is below the folders of the batch still to be gone through, and what is from those of the
queue on are together the folders to be searched, and the results are the hits in the folders gone through. The
queue has folders of two levels at most, the deeper ones last. -/
structure Whole (s : Search) (todo : List RemoteSearchDirectory) : Prop where
  folders : (s.visited ++ todo.flatMap (below list basePath) ++ s.queue.flatMap (pending list basePath)).Perm
    (allFolders list basePath)
  results : (s.results ++ todo.flatMap fun dir => hitsIn platform list query dir.path).Perm
    (s.visited.flatMap (hitsIn platform list query))
  sorted : ((todo ++ s.queue).map RemoteSearchDirectory.depth).Pairwise (· ≤ ·)
  spread : ∀ m ∈ (todo ++ s.queue).map RemoteSearchDirectory.depth,
    ∀ n ∈ (todo ++ s.queue).map RemoteSearchDirectory.depth, n ≤ m + 1

variable {todo : List RemoteSearchDirectory} {dir : RemoteSearchDirectory}

theorem Whole.few (hwhole : Whole platform list basePath query s todo)
    (hfew : ((allFolders list basePath).flatMap (hitsIn platform list query)).length < maxResults) :
    s.results.length + (todo.flatMap fun dir => hitsIn platform list query dir.path).length < maxResults := by
  have hall := (hwhole.folders.flatMap_right (hitsIn platform list query)).length_eq
  have hvisited := hwhole.results.length_eq
  rw [List.append_assoc, List.flatMap_append, List.length_append] at hall
  rw [List.length_append] at hvisited
  omega

/-- There is room in the queue for the folders in the first folder of the batch, unless it is at the deepest level. -/
theorem Whole.room (hwhole : Whole platform list basePath query s (dir :: todo))
    (hlength : (allFolders list basePath).length ≤ 600) (hdepth : dir.depth < 12) :
    s.visited.length + s.queue.length + ((entriesOf list dir.path).filter (isSearched basePath)).length ≤ 600 := by
  have hall := hwhole.folders.length_eq
  rw [List.flatMap_cons, List.length_append, List.length_append, List.length_append] at hall
  have hqueue : s.queue.length ≤ (s.queue.flatMap (pending list basePath)).length := by
    apply length_le_flatMap
    intro current hcurrent
    apply length_pending_pos
    have hle := hwhole.spread dir.depth (by simp) current.depth
      (List.mem_map_of_mem (List.mem_append_right _ hcurrent))
    omega
  have hbelow : ((entriesOf list dir.path).filter (isSearched basePath)).length ≤ (below list basePath dir).length := by
    unfold below
    rw [if_pos hdepth]
    have hle := length_le_flatMap (l := foldersIn list basePath normalizedPath dir.path)
      (f := within (foldersIn list basePath normalizedPath) (11 - dir.depth)) fun _ _ => length_within_pos
    unfold foldersIn at hle ⊢
    rwa [List.length_map] at hle
  omega

/-- The first folder of the batch is gone through: its hits are results, and its folders are in the queue. -/
theorem Whole.searchDirectory (hwhole : Whole platform list basePath query s (dir :: todo))
    (hdepth : dir.depth ≤ 12) (hlength : (allFolders list basePath).length ≤ 600)
    (hfew : ((allFolders list basePath).flatMap (hitsIn platform list query)).length < maxResults) :
    Whole platform list basePath query
      (searchDirectory platform basePath query maxResults s dir (entriesOf list dir.path)) todo := by
  have hroom := hwhole.few hfew
  rw [List.flatMap_cons, List.length_append] at hroom
  have hentries : searchEntries platform basePath query maxResults s.results [] (entriesOf list dir.path) =
      (s.results ++ hitsIn platform list query dir.path,
        [] ++ (entriesOf list dir.path).filter (isSearched basePath)) := by
    apply searchEntries_eq
    unfold hitsIn at hroom
    omega
  unfold Find.searchDirectory
  simp only [hentries, List.nil_append]
  generalize hsort : platform.sort _ ((entriesOf list dir.path).filter (isSearched basePath)) = children
  have hperm : children.Perm ((entriesOf list dir.path).filter (isSearched basePath)) := by
    rw [← hsort]
    exact platform.sort_perm _ _
  obtain ⟨taken, -, hqueue, -, hall⟩ := enqueue_spec s.visited dir.depth s.queue children
  rw [hqueue]
  have hnew : (taken.map fun directory => (⟨directory.path, dir.depth + 1⟩ : RemoteSearchDirectory)).flatMap
      (pending list basePath) |>.Perm (below list basePath dir) := by
    rw [List.flatMap_map]
    by_cases hless : dir.depth < 12
    · have htaken : taken = children := by
        apply hall
        rw [hperm.length_eq]
        exact hwhole.room hlength hless
      have hsub : 12 - (dir.depth + 1) = 11 - dir.depth := by omega
      have hle : dir.depth + 1 ≤ 12 := hless
      unfold below pending foldersIn
      simp only [if_pos hless, if_pos hle, hsub]
      rw [List.flatMap_map, htaken]
      exact hperm.flatMap_right _
    · have hdeep : ¬ dir.depth + 1 ≤ 12 := by omega
      have hbelow : below list basePath dir = [] := if_neg hless
      have hnone : (taken.flatMap fun directory =>
          pending list basePath ⟨directory.path, dir.depth + 1⟩) = [] :=
        List.flatMap_eq_nil_iff.mpr fun directory _ => if_neg hdeep
      rw [hbelow, hnone]
  have hdepths : (taken.map fun directory => (⟨directory.path, dir.depth + 1⟩ : RemoteSearchDirectory)).map
      RemoteSearchDirectory.depth = List.replicate taken.length (dir.depth + 1) := by
    rw [List.map_map]
    exact List.map_const' ..
  have hsorted := hwhole.sorted
  rw [List.cons_append, List.map_cons, List.pairwise_cons] at hsorted
  have hspread : ∀ n ∈ (todo ++ s.queue).map RemoteSearchDirectory.depth, n ≤ dir.depth + 1 := by
    intro n hn
    exact hwhole.spread dir.depth (by simp) n (by rw [List.cons_append, List.map_cons]; exact List.mem_cons_of_mem _ hn)
  constructor
  · refine List.Perm.trans ?_ hwhole.folders
    rw [List.flatMap_append, List.flatMap_cons]
    show (s.visited ++ _ ++ _).Perm _
    calc s.visited ++ todo.flatMap (below list basePath) ++ (s.queue.flatMap (pending list basePath) ++ _)
        = s.visited ++ (todo.flatMap (below list basePath) ++ s.queue.flatMap (pending list basePath) ++ _) := by
          simp only [List.append_assoc]
      _ |>.Perm (s.visited ++ (below list basePath dir ++ (todo.flatMap (below list basePath) ++
          s.queue.flatMap (pending list basePath)))) :=
          ((List.perm_append_comm).trans (hnew.append_right _)).append_left _
      _ = s.visited ++ (below list basePath dir ++ todo.flatMap (below list basePath)) ++
          s.queue.flatMap (pending list basePath) := by simp only [List.append_assoc]
  · have hresults := hwhole.results
    rw [List.flatMap_cons, ← List.append_assoc] at hresults
    exact hresults
  · show ((todo ++ (s.queue ++ _)).map RemoteSearchDirectory.depth).Pairwise (· ≤ ·)
    rw [← List.append_assoc, List.map_append, hdepths, List.pairwise_append]
    refine ⟨hsorted.2, List.pairwise_replicate.mpr (.inr (Nat.le_refl _)), ?_⟩
    intro m hm n hn
    rw [List.eq_of_mem_replicate hn]
    exact hspread m hm
  · show ∀ m ∈ (todo ++ (s.queue ++ _)).map RemoteSearchDirectory.depth,
      ∀ n ∈ (todo ++ (s.queue ++ _)).map RemoteSearchDirectory.depth, n ≤ m + 1
    rw [← List.append_assoc, List.map_append, hdepths]
    have hlow : ∀ m ∈ (todo ++ s.queue).map RemoteSearchDirectory.depth ++
        List.replicate taken.length (dir.depth + 1), dir.depth ≤ m := by
      intro m hm
      rcases List.mem_append.mp hm with hold | hnew
      · exact hsorted.1 m hold
      · rw [List.eq_of_mem_replicate hnew]
        exact Nat.le_succ _
    intro m hm n hn
    have hle := hlow m hm
    rcases List.mem_append.mp hn with hold | hnew
    · have hbound := hspread n hold
      omega
    · rw [List.eq_of_mem_replicate hnew]
      omega

theorem Whole.searchBatch (hwhole : Whole platform list basePath query s todo)
    (hdepth : ∀ dir ∈ todo, dir.depth ≤ 12) (hlength : (allFolders list basePath).length ≤ 600)
    (hfew : ((allFolders list basePath).flatMap (hitsIn platform list query)).length < maxResults) :
    Whole platform list basePath query (searchBatch platform basePath query maxResults s
      (todo.map fun dir => (dir, entriesOf list dir.path))) [] := by
  induction todo generalizing s with
  | nil => exact hwhole
  | cons dir todo ih =>
    have hroom := hwhole.few hfew
    have hless : ¬ maxResults ≤ s.results.length := by omega
    rw [List.map_cons]
    unfold Find.searchBatch
    rw [if_neg hless]
    have hfirst := hwhole.searchDirectory (hdepth dir List.mem_cons_self) hlength hfew
    exact ih hfirst fun other hother => hdepth other (List.mem_cons_of_mem _ hother)

/-- Where no folder has the path of another, what is taken and what is left is what was in the queue, but for
folders below the deepest level. -/
theorem takeBatch_whole (batch : List RemoteSearchDirectory) (visited : List String)
    (queue : List RemoteSearchDirectory) (hnodup : (visited ++ queue.flatMap (pending list basePath)).Nodup) :
    ∃ new rest, takeBatch batch visited queue = (batch ++ new, visited ++ new.map RemoteSearchDirectory.path, rest) ∧
      queue.flatMap (pending list basePath) =
        (new.flatMap fun dir => dir.path :: below list basePath dir) ++ rest.flatMap (pending list basePath) ∧
      ((new ++ rest).map RemoteSearchDirectory.depth).Sublist (queue.map RemoteSearchDirectory.depth) := by
  induction queue generalizing batch visited with
  | nil => exact ⟨[], [], by simp [takeBatch], rfl, List.Sublist.refl _⟩
  | cons current queue ih =>
    unfold takeBatch
    split
    case isTrue =>
      split
      case isTrue hdepth =>
        have hnone : pending list basePath current = [] := if_neg (Nat.not_le_of_lt hdepth)
        rw [List.flatMap_cons, hnone, List.nil_append] at hnodup ⊢
        obtain ⟨new, rest, heq, hsplit, hsub⟩ := ih batch visited hnodup
        exact ⟨new, rest, heq, hsplit, hsub.cons _⟩
      case isFalse hdepth =>
        have hcons : pending list basePath current = normalizedPath current.path ::
            below list basePath ⟨normalizedPath current.path, current.depth⟩ :=
          pending_eq_cons (Nat.le_of_not_lt hdepth)
        rw [List.flatMap_cons, hcons] at hnodup ⊢
        have hnew : normalizedPath current.path ∉ visited := by
          intro hmem
          exact (List.nodup_append.mp hnodup).2.2 _ hmem _ (by simp) rfl
        rw [if_neg hnew]
        have hrest : (visited ++ [normalizedPath current.path] ++ queue.flatMap (pending list basePath)).Nodup := by
          refine List.Nodup.sublist ?_ hnodup
          rw [List.append_assoc]
          exact List.Sublist.append_left (((List.sublist_append_right _ _).cons_cons _)) _
        obtain ⟨new, rest, heq, hsplit, hsub⟩ :=
          ih (batch ++ [⟨normalizedPath current.path, current.depth⟩]) _ hrest
        refine ⟨⟨normalizedPath current.path, current.depth⟩ :: new, rest, ?_, ?_, ?_⟩
        · rw [heq]
          simp
        · rw [hsplit, List.flatMap_cons]
          simp
        · exact hsub.cons_cons _
    case isFalse =>
      exact ⟨[], current :: queue, by simp, by simp, List.Sublist.refl _⟩

theorem Whole.took (hwhole : Whole platform list basePath query s []) (hnodup : (allFolders list basePath).Nodup)
    {new rest : List RemoteSearchDirectory}
    (htake : takeBatch [] s.visited s.queue = (new, s.visited ++ new.map RemoteSearchDirectory.path, rest)) :
    Whole platform list basePath query (s.took new rest) new := by
  have hfolders := hwhole.folders
  rw [List.flatMap_nil, List.append_nil] at hfolders
  have hwithout : (s.visited ++ s.queue.flatMap (pending list basePath)).Nodup := hfolders.nodup_iff.mpr hnodup
  obtain ⟨new', rest', heq, hsplit, hsub⟩ := takeBatch_whole [] s.visited s.queue hwithout
  rw [htake, List.nil_append] at heq
  obtain ⟨rfl, ⟨⟩⟩ := Prod.mk.inj heq
  constructor
  · refine List.Perm.trans ?_ hfolders
    rw [hsplit]
    show (s.visited ++ new.map RemoteSearchDirectory.path ++ _ ++ _).Perm _
    rw [List.append_assoc s.visited, List.append_assoc s.visited]
    exact ((List.map_append_flatMap_perm new _ _).append_right _).append_left _
  · have hresults := hwhole.results
    rw [List.flatMap_nil, List.append_nil] at hresults
    show (s.results ++ _).Perm ((s.visited ++ new.map RemoteSearchDirectory.path).flatMap _)
    rw [List.flatMap_append, List.flatMap_map]
    exact hresults.append_right _
  · exact hwhole.sorted.sublist hsub
  · intro m hm n hn
    exact hwhole.spread m (hsub.subset hm) n (hsub.subset hn)

theorem whole_start : Whole platform list basePath query { queue := [⟨basePath, 0⟩] } [] := by
  refine ⟨?_, List.Perm.refl _, List.pairwise_singleton _ _, ?_⟩
  · show ([] ++ [] ++ ([⟨basePath, 0⟩] : List RemoteSearchDirectory).flatMap (pending list basePath)).Perm _
    rw [List.flatMap_singleton]
    exact List.Perm.refl _
  · intro m hm n hn
    obtain rfl := List.mem_singleton.mp hm
    obtain rfl := List.mem_singleton.mp hn
    exact Nat.zero_le _

theorem Whole.keep (hwhole : Whole platform list basePath query s []) (hnodup : (allFolders list basePath).Nodup)
    (hlength : (allFolders list basePath).length ≤ 600)
    (hfew : ((allFolders list basePath).flatMap (hitsIn platform list query)).length < maxResults)
    (hturn : turn platform list basePath query maxResults s = .next s') :
    Whole platform list basePath query s' [] := by
  rcases turn_cases platform list basePath query maxResults s with
    ⟨-, hdone⟩ | ⟨-, -, -, new, rest, htake, hbatch, ⟨hnew, hnext⟩ | ⟨-, -, hnext⟩ | ⟨_, -, -, error, -, hdone⟩⟩
  · cases hdone.symm.trans hturn
  · cases hnext.symm.trans hturn
    obtain rfl := hnew
    obtain rfl := hbatch.empty (by decide) rfl
    have htook := hwhole.took hnodup htake
    refine ⟨?_, htook.results.trans (by simp [Search.took]), htook.sorted, htook.spread⟩
    have hfolders := htook.folders
    simpa [Search.took] using hfolders
  · cases hnext.symm.trans hturn
    exact (hwhole.took hnodup htake).searchBatch (fun dir hdir => (hbatch.taken dir hdir).1) hlength hfew
  · cases hdone.symm.trans hturn

theorem Whole.done {found : Found ε} (hwhole : Whole platform list basePath query s [])
    (hlength : (allFolders list basePath).length ≤ 600)
    (hfew : ((allFolders list basePath).flatMap (hitsIn platform list query)).length < maxResults)
    (hturn : turn platform list basePath query maxResults s = .done found)
    (hlisted : ∀ error, found.result ≠ .error error) :
    ∃ entries, found.result = .ok entries ∧
      entries.Perm ((allFolders list basePath).flatMap (hitsIn platform list query)) := by
  rcases turn_cases platform list basePath query maxResults s with
    ⟨hstop, hdone⟩ | ⟨-, -, -, new, rest, -, -, ⟨-, hnext⟩ | ⟨-, -, hnext⟩ | ⟨_, -, -, error, -, hdone⟩⟩
  · cases hdone.symm.trans hturn
    have hroom := hwhole.few hfew
    have hfolders := hwhole.folders
    have hresults := hwhole.results
    rw [List.flatMap_nil, List.append_nil] at hfolders hresults
    have hqueue : s.queue.flatMap (pending list basePath) = [] := by
      rcases hstop with hempty | hfull | hvisited
      · rw [hempty, List.flatMap_nil]
      · omega
      · have hall := hfolders.length_eq
        rw [List.length_append] at hall
        exact List.eq_nil_of_length_eq_zero (by omega)
    rw [hqueue, List.append_nil] at hfolders
    exact ⟨s.results, rfl, hresults.trans (hfolders.flatMap_right _)⟩
  · cases hnext.symm.trans hturn
  · cases hnext.symm.trans hturn
  · cases hdone.symm.trans hturn
    exact absurd rfl (hlisted error)

end Room

theorem foldersIn_normalizedPath (hplain : Plain list basePath) :
    normalizedPath basePath = basePath ∧ ∀ m path, AtLevel (foldersIn list basePath id) basePath m path →
      m < 12 → foldersIn list basePath id path = foldersIn list basePath normalizedPath path := by
  constructor
  · exact hplain basePath (mem_within_iff.mpr ⟨0, Nat.zero_le _, .root⟩)
  · intro m path hat hless
    unfold foldersIn
    apply List.map_congr_left
    intro entry hentry
    have hchild : AtLevel (foldersIn list basePath id) basePath (m + 1) entry.path :=
      .child hat (List.mem_map_of_mem (f := fun entry : RemoteFileEntry => id entry.path) hentry)
    exact (hplain entry.path (mem_within_iff.mpr ⟨m + 1, hless, hchild⟩)).symm

theorem allFolders_eq (hplain : Plain list basePath) : allFolders list basePath = folders list basePath := by
  obtain ⟨hbase, hsame⟩ := foldersIn_normalizedPath hplain
  unfold allFolders folders
  rw [hbase]
  exact (within_congr hsame).symm

theorem hitsIn_eq (hline : '\n' ∉ query.toList) : hitsIn platform list query = matchesIn platform list query := by
  funext path
  exact List.filter_congr fun entry _ => isHit_eq hline entry

/-- The search comes to its end within its bounds; it fails only if the base path cannot be listed; and where no path
has white space around it and the query is one line, it is sound, and complete if the base path can be listed. -/
theorem finds_entries (platform : TextPlatform) (list : String → Except ε (List RemoteFileEntry))
    (basePath query : String) (maxResults : Nat) :
    (∃ found, Finds platform list basePath query maxResults found) ∧
      ∀ found, Finds platform list basePath query maxResults found →
        Bounded list basePath maxResults found ∧
        (∀ error, found.result = .error error → list (normalizedPath basePath) = .error error) ∧
        (Plain list basePath → '\n' ∉ query.toList → Sound platform list basePath query found ∧
          ((∃ entries, list basePath = .ok entries) →
            Complete platform list basePath query maxResults found)) := by
  refine ⟨exists_finds, ?_⟩
  rintro found ⟨n, hdone⟩
  obtain ⟨s, hgoing, hturn⟩ := exists_last_turn (I := Going platform list basePath query maxResults)
    (fun s s' hgoing hturn => (hgoing.keep hturn).1) n going_start hdone
  obtain ⟨hbounded, herror, hresults⟩ := hgoing.done hturn
  refine ⟨hbounded, herror, fun hplain hline => ?_⟩
  obtain ⟨hbase, hsame⟩ := foldersIn_normalizedPath hplain
  have hlisted : ∀ dir ∈ found.listed, AtLevel (foldersIn list basePath id) basePath dir.depth dir.path := by
    intro dir hdir
    have hat := hbounded.listed_at dir hdir
    rw [hbase] at hat
    exact hat.of_congr hsame (hbounded.depth_le dir hdir)
  refine ⟨⟨hlisted, ?_⟩, ?_⟩
  · intro entries hentries entry hentry
    obtain ⟨hhit, dir, hdir, hmem⟩ := hresults entries hentries entry hentry
    rw [isHit_eq hline] at hhit
    exact ⟨⟨dir.path, mem_within_iff.mpr ⟨dir.depth, hbounded.depth_le dir hdir, hlisted dir hdir⟩, hmem⟩, hhit⟩
  · rintro ⟨entries, hok⟩ hnodup hlength hfew
    rw [← allFolders_eq hplain] at hnodup hlength hfew
    rw [← hitsIn_eq hline] at hfew
    obtain ⟨s, hwhole, hturn⟩ := exists_last_turn (I := fun s => Whole platform list basePath query s [])
      (fun s s' hwhole hturn => hwhole.keep hnodup hlength hfew hturn) n whole_start hdone
    have hnever : ∀ error, found.result ≠ .error error := by
      intro error hfail
      have hlist := herror error hfail
      rw [hbase, hok] at hlist
      cases hlist
    rw [← allFolders_eq hplain, ← hitsIn_eq hline]
    exact hwhole.done hlength hfew hturn hnever

def asciiPlatform : TextPlatform where
  toLowerCase text := String.ofList (text.toList.map Char.toLower)
  sort compare entries := entries.insertionSort fun a b => (compare a b).isLE = true
  toLowerCase_lines a b := by
    apply String.toList_injective
    simp
  sort_perm compare entries := List.perm_insertionSort _ entries

def folder (name path : String) : RemoteFileEntry := ⟨name, path, true, 0, 0, 0⟩

def file (name path : String) : RemoteFileEntry := ⟨name, path, false, 0, 0, 0⟩

def spacedFolder (path : String) : Except String (List RemoteFileEntry) :=
  if path = "/d" then .ok [folder "a " "/d/a "]
  else if path = "/d/a " then .ok [file "log" "/d/a /log"]
  else .error "no such file"

variable (platform list basePath query maxResults) in
theorem exists_finds_of (n : Nat) (test : Found ε → Bool)
    (hturns : (match afterTurns (turn platform list basePath query maxResults) n { queue := [⟨basePath, 0⟩] } with
      | .done found => test found
      | .next _ => false
      | .waits => false) = true) :
    ∃ found, Finds platform list basePath query maxResults found ∧ test found = true := by
  split at hturns
  case h_1 found hdone => exact ⟨found, ⟨n, hdone⟩, hturns⟩
  case h_2 => cases hturns
  case h_3 => cases hturns

/-- The base path cannot be listed; a folder has a space at the end of its name; the query has two lines. -/
theorem finds_otherwise :
    (∃ found, Finds asciiPlatform (fun _ => .error "denied") "/d" "log" 120 found ∧
      ¬ Complete (ε := String) asciiPlatform (fun _ => .error "denied") "/d" "log" 120 found) ∧
    (∃ found, Finds asciiPlatform spacedFolder "/d" "log" 120 found ∧
      ¬ Complete asciiPlatform spacedFolder "/d" "log" 120 found) ∧
    ∃ found, Finds (ε := String) asciiPlatform (fun _ => .ok [file "log" "/d/log"]) "/d" "g\n/" 120 found ∧
      ¬ Sound asciiPlatform (fun _ => .ok [file "log" "/d/log"]) "/d" "g\n/" found := by
  refine ⟨?_, ?_, ?_⟩
  · obtain ⟨found, hfinds, htest⟩ := exists_finds_of (ε := String) asciiPlatform
      (fun _ => .error "denied") "/d" "log" 120 1
      (fun found => match found.result with
        | .ok _ => false
        | .error _ => true) (by decide)
    refine ⟨found, hfinds, fun hcomplete => ?_⟩
    obtain ⟨entries, hok, -⟩ := hcomplete (by decide) (by decide) (by decide)
    simp only [hok] at htest
    cases htest
  · obtain ⟨found, hfinds, htest⟩ := exists_finds_of asciiPlatform spacedFolder "/d" "log" 120 3
      (fun found => match found.result with
        | .ok entries => entries.isEmpty
        | .error _ => false) (by decide)
    refine ⟨found, hfinds, fun hcomplete => ?_⟩
    obtain ⟨entries, hok, hperm⟩ := hcomplete (by decide) (by decide) (by decide)
    simp only [hok] at htest
    obtain rfl := List.isEmpty_iff.mp htest
    have hlength := hperm.length_eq
    revert hlength
    decide
  · obtain ⟨found, hfinds, htest⟩ := exists_finds_of (ε := String) asciiPlatform
      (fun _ => .ok [file "log" "/d/log"]) "/d" "g\n/" 120 2
      (fun found => match found.result with
        | .ok entries => entries.any fun entry => !matchesQuery asciiPlatform "g\n/" entry
        | .error _ => false) (by decide)
    refine ⟨found, hfinds, fun hsound => ?_⟩
    split at htest
    case h_1 entries hok =>
      obtain ⟨entry, hentry, hnot⟩ := List.any_eq_true.mp htest
      have hmatch := (hsound.results_match entries hok entry hentry).2
      rw [hmatch] at hnot
      cases hnot
    case h_2 => cases htest

end Portix.SftpWorkspace.Find
