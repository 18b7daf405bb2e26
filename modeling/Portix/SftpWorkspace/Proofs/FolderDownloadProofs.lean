import Mathlib.Data.Finset.Card
import Portix.SftpWorkspace.FolderDownload
import Portix.Sftp.Proofs.EntryPathProofs

/-!
# Proofs: downloads of folders

Names sent by the server cannot lead out of the target, the recursion ends because a canonical path is
entered once, and each file that is listed is asked for at its place below the target.
-/

namespace Portix.SftpWorkspace

open Lib Domain Prog

/-- A character that the local platform reads as the end of a folder's name. -/
def isLocalSeparator (windows : Bool) (c : Char) : Bool := c == '/' || (windows && c == '\\')

/-- A name that is one component of a local path. -/
structure Component (windows : Bool) (name : String) : Prop where
  ne_empty : name ≠ ""
  ne_dot : name ≠ "."
  ne_dotdot : name ≠ ".."
  no_separator : ∀ c ∈ name.toList, isLocalSeparator windows c = false

def below (windows : Bool) (target : String) (names : List String) : String :=
  names.foldl (childPath windows) target

/-- The target, or a path formed from it by appending components. -/
def Inside (windows : Bool) (target path : String) : Prop :=
  ∃ names, (∀ name ∈ names, Component windows name) ∧ path = below windows target names

/-- A folder that a path goes through. -/
def Above (windows : Bool) (folder path : String) : Prop :=
  ∃ c rest, isLocalSeparator windows c = true ∧ path.toList = folder.toList ++ c :: rest

section Places

variable {windows : Bool} {target path name folder : String}

theorem Inside.refl : Inside windows target target := by
  refine ⟨[], ?_, rfl⟩
  rintro name ⟨⟩

theorem Inside.child (h : Inside windows target path) (hname : Component windows name) :
    Inside windows target (childPath windows path name) := by
  obtain ⟨names, hnames, rfl⟩ := h
  refine ⟨names ++ [name], ?_, ?_⟩
  · intro n hn
    rcases List.mem_append.mp hn with hn | hn
    · exact hnames n hn
    · exact List.mem_singleton.mp hn ▸ hname
  · rw [below, below, List.foldl_append, List.foldl_cons, List.foldl_nil]

theorem Inside.trans {middle : String} (h : Inside windows target middle) (h' : Inside windows middle path) :
    Inside windows target path := by
  obtain ⟨names, hnames, rfl⟩ := h
  obtain ⟨names', hnames', rfl⟩ := h'
  refine ⟨names ++ names', ?_, ?_⟩
  · intro n hn
    rcases List.mem_append.mp hn with hn | hn
    · exact hnames n hn
    · exact hnames' n hn
  · rw [below, below, below, List.foldl_append]

theorem isLocalSeparator_pathSeparator (windows : Bool) :
    ∃ c, (pathSeparator windows).toList = [c] ∧ isLocalSeparator windows c = true := by
  cases windows
  · exact ⟨'/', by decide, by decide⟩
  · exact ⟨'\\', by decide, by decide⟩

theorem Above.child (hname : Component windows name) (h : Above windows folder (childPath windows path name)) :
    folder = path ∨ Above windows folder path := by
  obtain ⟨separator, hseparator, -⟩ := isLocalSeparator_pathSeparator windows
  obtain ⟨c, rest, hc, heq⟩ := h
  rw [childPath, String.toList_append, String.toList_append, hseparator, List.append_assoc,
    List.singleton_append, List.append_eq_append_iff] at heq
  rcases heq with ⟨tail, hfolder, htail⟩ | ⟨tail, hpath, htail⟩
  · cases tail with
    | nil =>
      rw [List.append_nil] at hfolder
      exact Or.inl (String.toList_inj.mp hfolder)
    | cons d tail =>
      -- The separator would be inside the name.
      rw [List.cons_append, List.cons.injEq] at htail
      have hmem : c ∈ name.toList := by rw [htail.2]; simp
      exact absurd hc (by rw [hname.no_separator c hmem]; decide)
  · cases tail with
    | nil =>
      rw [List.append_nil] at hpath
      exact Or.inl (String.toList_inj.mp hpath.symm)
    | cons d tail =>
      rw [List.cons_append, List.cons.injEq] at htail
      obtain ⟨rfl, -⟩ := htail
      exact Or.inr ⟨c, tail, hc, hpath⟩

theorem Above.inside (hpath : Inside windows target path) (h : Above windows folder path) :
    Inside windows target folder ∨ Above windows folder target := by
  obtain ⟨names, hnames, rfl⟩ := hpath
  induction names using List.reverseRecOn with
  | nil => exact Or.inr h
  | append_singleton names name ih =>
    rw [below, List.foldl_append, List.foldl_cons, List.foldl_nil] at h
    have hinit : ∀ n ∈ names, Component windows n := fun n hn => hnames n (List.mem_append_left _ hn)
    rcases h.child (hnames name (by simp)) with rfl | habove
    · exact Or.inl ⟨names, hinit, rfl⟩
    · exact ih hinit habove

theorem Component.partPath (h : Component windows name) : Component windows (Sftp.partPath name) := by
  have hlist : (Sftp.partPath name).toList = name.toList ++ Sftp.partSuffix.toList := by
    rw [Sftp.partPath, String.toList_append]
  have hlength : 12 ≤ (Sftp.partPath name).toList.length := by
    rw [hlist, List.length_append]
    have hsuffix : Sftp.partSuffix.toList.length = 12 := by decide
    omega
  have hne : ∀ short : String, short.toList.length < 12 → Sftp.partPath name ≠ short := by
    intro short hshort heq
    rw [heq] at hlength
    omega
  refine ⟨hne "" (by decide), hne "." (by decide), hne ".." (by decide), ?_⟩
  intro c hc
  rw [hlist] at hc
  rcases List.mem_append.mp hc with hc | hc
  · exact h.no_separator c hc
  · have hsuffix : ∀ w, Sftp.partSuffix.toList.any (isLocalSeparator w) = false := by decide
    exact eq_false_of_ne_true (List.any_eq_false.mp (hsuffix windows) c hc)

theorem partPath_childPath (windows : Bool) (path name : String) :
    Sftp.partPath (childPath windows path name) = childPath windows path (Sftp.partPath name) :=
  String.append_assoc

theorem Component.of_isSafeEntryName (h : Sftp.isSafeEntryName name windows = true) : Component windows name := by
  simp only [Sftp.isSafeEntryName, Bool.and_eq_true, ne_eq, Bool.not_eq_true', Bool.or_eq_false_iff,
    Bool.and_eq_false_iff, decide_eq_true_eq, containsChar, List.contains_eq_mem, decide_eq_false_iff_not] at h
  obtain ⟨⟨⟨⟨hempty, hdot⟩, hdotdot⟩, hslash, -⟩, hback⟩ := h
  refine ⟨hempty, hdot, hdotdot, ?_⟩
  intro c hc
  rw [isLocalSeparator, Bool.or_eq_false_iff, beq_eq_false_iff_ne, Bool.and_eq_false_iff, beq_eq_false_iff_ne]
  refine ⟨fun he => hslash (he ▸ hc), ?_⟩
  rcases hback with hback | hback
  · exact Or.inl hback
  · exact Or.inr fun he => hback.1 (he ▸ hc)

end Places

/-- The paths that a call creates or writes, where some folders are there already. -/
def touches (windows : Bool) (present : String → Prop) : DownloadCall → String → Prop
  | .createDirectory localPath, path => (path = localPath ∨ Above windows path localPath) ∧ ¬present path
  | .createParent localPath, path => Above windows path localPath ∧ ¬present path
  | .download _ localPath, path => path = localPath ∨ path = Sftp.partPath localPath
  | .localTargetExists _, _ | .resolve _, _ | .list _, _ => False

/-- The local path of a call is the target or inside it; that of a file is a child of such a folder. -/
def Placed (windows : Bool) (target : String) : DownloadCall → Prop
  | .createDirectory localPath => Inside windows target localPath
  | .createParent localPath | .download _ localPath => ∃ dir name,
    Inside windows target dir ∧ Component windows name ∧ localPath = childPath windows dir name
  | .localTargetExists _ | .resolve _ | .list _ => True

section Touches

variable {windows : Bool} {target path : String} {call : DownloadCall}

theorem Placed.trans {middle : String} (hmiddle : Inside windows target middle) (h : Placed windows middle call) :
    Placed windows target call := by
  cases call with
  | createDirectory localPath => exact hmiddle.trans h
  | createParent localPath | download remotePath localPath =>
    obtain ⟨dir, name, hdir, hname, rfl⟩ := h
    exact ⟨dir, name, hmiddle.trans hdir, hname, rfl⟩
  | localTargetExists | resolve | list => trivial

theorem Placed.touches_inside (h : Placed windows target call) {present : String → Prop}
    (hpresent : ∀ folder, Above windows folder target → present folder)
    (htouches : touches windows present call path) : Inside windows target path := by
  have habove : ∀ {q : String}, Inside windows target q → Above windows path q → ¬present path →
      Inside windows target path := by
    intro q hq hpath hmissing
    rcases hpath.inside hq with hinside | houtside
    · exact hinside
    · exact absurd (hpresent path houtside) hmissing
  cases call with
  | createDirectory localPath =>
    obtain ⟨rfl | hpath, hmissing⟩ := htouches
    · exact h
    · exact habove h hpath hmissing
  | createParent localPath =>
    obtain ⟨dir, name, hdir, hname, rfl⟩ := h
    exact habove (hdir.child hname) htouches.1 htouches.2
  | download remotePath localPath =>
    obtain ⟨dir, name, hdir, hname, rfl⟩ := h
    rcases htouches with rfl | rfl
    · exact hdir.child hname
    · rw [partPath_childPath]
      exact hdir.child hname.partPath
  | localTargetExists | resolve | list => exact htouches.elim

end Touches

abbrev DownloadEvent : Type := Prog.Event DownloadCall DownloadAnswer

def lastCanonical : String → List DownloadEvent → String
  | canonical, [] => canonical
  | _, ⟨.resolve _, .ok canonical⟩ :: rest => lastCanonical canonical rest
  | canonical, _ :: rest => lastCanonical canonical rest

/-- The canonical path of each folder that was listed: the one that the server gave before. -/
def canonicalsListed : String → List DownloadEvent → List String
  | _, [] => []
  | _, ⟨.resolve _, .ok canonical⟩ :: rest => canonicalsListed canonical rest
  | canonical, ⟨.list _, _⟩ :: rest => canonical :: canonicalsListed canonical rest
  | canonical, _ :: rest => canonicalsListed canonical rest

/-- A folder is reached from another one by the names of listed entries. -/
inductive FolderAt (es : List DownloadEvent) : String → List String → String → Prop
  | here (path : String) : FolderAt es path [] path
  | entry {root path : String} {names : List String} {entries : List Sftp.RemoteFileEntry}
      {entry : Sftp.RemoteFileEntry} : ⟨.list root, .ok entries⟩ ∈ es → entry ∈ entries →
      entry.isDirectory = true → FolderAt es entry.path names path →
      FolderAt es root (entry.name :: names) path

def FilesIn (windows : Bool) (es : List DownloadEvent) (dir : String) (entries : List Sftp.RemoteFileEntry) :
    Prop :=
  ∀ entry ∈ entries, entry.isDirectory = false →
    ⟨.download entry.path (childPath windows dir entry.name), .ok ()⟩ ∈ es

/-- The files of each listed folder are where the names of its path lead to. -/
def FilesPlaced (windows : Bool) (es : List DownloadEvent) (root target : String) : Prop :=
  ∀ path entries, ⟨.list path, .ok entries⟩ ∈ es →
    ∃ names, FolderAt es root names path ∧ FilesIn windows es (below windows target names) entries

section Traces

variable {windows : Bool} {es es' : List DownloadEvent} {canonical root target path : String}
  {names : List String}

theorem canonicalsListed_append (canonical : String) (es es' : List DownloadEvent) :
    canonicalsListed canonical (es ++ es') =
      canonicalsListed canonical es ++ canonicalsListed (lastCanonical canonical es) es' := by
  induction es generalizing canonical with
  | nil => rfl
  | cons event rest ih =>
    obtain ⟨call, answer⟩ := event
    cases call with
    | resolve path => cases answer with
      | ok canonical' => exact ih canonical'
      | error _ => exact ih canonical
    | list path => exact congrArg (canonical :: ·) (ih canonical)
    | localTargetExists | createDirectory | createParent | download => exact ih canonical

theorem FolderAt.mono (h : FolderAt es root names path) (hes : es ⊆ es') : FolderAt es' root names path := by
  induction h with
  | here path => exact .here path
  | entry hlist hentry hdir _ ih => exact .entry (hes hlist) hentry hdir ih

theorem FilesIn.mono {dir : String} {entries : List Sftp.RemoteFileEntry} (h : FilesIn windows es dir entries)
    (hes : es ⊆ es') : FilesIn windows es' dir entries :=
  fun entry hentry hfile => hes (h entry hentry hfile)

end Traces

/-- What holds of the trace of a folder's download, or of its loop, at any time. -/
structure Kept (windows : Bool) (target : String) (seen : List String) (es : List DownloadEvent) : Prop where
  placed : ∀ event ∈ es, Placed windows target event.1
  nodup : ∀ canonical, (canonicalsListed canonical es).Nodup
  fresh : ∀ canonical, ∀ c ∈ canonicalsListed canonical es, c ∉ seen
  answered : ∀ canonical, ∀ c ∈ canonicalsListed canonical es, ∃ path, ⟨.resolve path, .ok c⟩ ∈ es

/-- The set of the canonical paths seen grows by the folders listed. -/
def Grown (seen : List String) (es : List DownloadEvent) (seen' : List String) : Prop :=
  ∀ canonical c, c ∈ seen' ↔ c ∈ seen ∨ c ∈ canonicalsListed canonical es

section Kept

variable {windows : Bool} {target name : String} {seen seen' : List String} {es es' : List DownloadEvent}

theorem Kept.nil : Kept windows target seen [] :=
  ⟨by simp, fun _ => List.nodup_nil, by simp [canonicalsListed], by simp [canonicalsListed]⟩

theorem Grown.nil : Grown seen [] seen :=
  by simp [Grown, canonicalsListed]

theorem Grown.trans {seen'' : List String} (h : Grown seen es seen') (h' : Grown seen' es' seen'') :
    Grown seen (es ++ es') seen'' := by
  intro canonical c
  rw [h' (lastCanonical canonical es) c, h canonical c, canonicalsListed_append, List.mem_append, or_assoc]

theorem Kept.append (h : Kept windows target seen es) (hgrown : Grown seen es seen')
    (h' : Kept windows target seen' es') : Kept windows target seen (es ++ es') := by
  constructor
  case placed =>
    intro event hevent
    exact (List.mem_append.mp hevent).elim (h.placed event) (h'.placed event)
  case nodup =>
    intro canonical
    rw [canonicalsListed_append, List.nodup_append']
    refine ⟨h.nodup canonical, h'.nodup _, ?_⟩
    intro c hc hc'
    exact h'.fresh _ c hc' ((hgrown canonical c).mpr (Or.inr hc))
  case fresh =>
    intro canonical c hc hseen
    rw [canonicalsListed_append, List.mem_append] at hc
    rcases hc with hc | hc
    · exact h.fresh canonical c hc hseen
    · exact h'.fresh _ c hc ((hgrown canonical c).mpr (Or.inl hseen))
  case answered =>
    intro canonical c hc
    rw [canonicalsListed_append, List.mem_append] at hc
    rcases hc with hc | hc
    · obtain ⟨path, hpath⟩ := h.answered canonical c hc
      exact ⟨path, List.mem_append_left _ hpath⟩
    · obtain ⟨path, hpath⟩ := h'.answered _ c hc
      exact ⟨path, List.mem_append_right _ hpath⟩

theorem Kept.child (hname : Component windows name)
    (h : Kept windows (childPath windows target name) seen es) : Kept windows target seen es :=
  { h with placed := fun event hevent => (h.placed event hevent).trans (Inside.refl.child hname) }

theorem canonicalsListed_of_file {remotePath localPath : String}
    (hes : ∀ event ∈ es, event.1 = .createParent localPath ∨ event.1 = .download remotePath localPath)
    (canonical : String) : canonicalsListed canonical es = [] := by
  induction es with
  | nil => rfl
  | cons event rest ih =>
    have hrest := ih fun event hevent => hes event (List.mem_cons_of_mem _ hevent)
    obtain ⟨call, answer⟩ := event
    rcases hes _ List.mem_cons_self with rfl | rfl <;> exact hrest

theorem Kept.of_nothing_listed (hplaced : ∀ event ∈ es, Placed windows target event.1)
    (hlisted : ∀ canonical, canonicalsListed canonical es = []) : Kept windows target seen es := by
  refine ⟨hplaced, fun canonical => ?_, fun canonical c hc => ?_, fun canonical c hc => ?_⟩
  · rw [hlisted]
    exact List.nodup_nil
  · rw [hlisted] at hc
    cases hc
  · rw [hlisted] at hc
    cases hc

theorem Kept.enter {path canonical : String} {answer : DownloadAnswer (.list path)} (hnew : canonical ∉ seen)
    (h : Kept windows target (canonical :: seen) es) :
    Kept windows target seen (⟨.resolve path, .ok canonical⟩ :: ⟨.createDirectory target, .ok ()⟩ ::
      ⟨.list path, answer⟩ :: es) := by
  constructor
  case placed =>
    intro event hevent
    simp only [List.mem_cons] at hevent
    rcases hevent with rfl | rfl | rfl | hevent
    · trivial
    · exact Inside.refl
    · trivial
    · exact h.placed event hevent
  case nodup =>
    intro _
    refine List.nodup_cons.mpr ⟨fun hmem => ?_, h.nodup canonical⟩
    exact h.fresh canonical canonical hmem List.mem_cons_self
  case fresh =>
    intro _ c hc hseen
    rcases List.mem_cons.mp hc with rfl | hc
    · exact hnew hseen
    · exact h.fresh canonical c hc (List.mem_cons_of_mem _ hseen)
  case answered =>
    intro _ c hc
    rcases List.mem_cons.mp hc with rfl | hc
    · exact ⟨path, List.mem_cons_self⟩
    · obtain ⟨path', hpath⟩ := h.answered canonical c hc
      exact ⟨path', by simp [hpath]⟩

theorem Grown.enter {path canonical : String} {answer : DownloadAnswer (.list path)}
    (h : Grown (canonical :: seen) es seen') :
    Grown seen (⟨.resolve path, .ok canonical⟩ :: ⟨.createDirectory target, .ok ()⟩ ::
      ⟨.list path, answer⟩ :: es) seen' := by
  intro start c
  have hlisted : canonicalsListed start (⟨.resolve path, .ok canonical⟩ :: ⟨.createDirectory target, .ok ()⟩ ::
      ⟨.list path, answer⟩ :: es) = canonical :: canonicalsListed canonical es := rfl
  rw [h canonical c, hlisted, List.mem_cons, List.mem_cons]
  tauto

theorem Kept.of_file {remotePath : String} (hname : Component windows name)
    (hes : ∀ event ∈ es, event.1 = .createParent (childPath windows target name) ∨
      event.1 = .download remotePath (childPath windows target name)) : Kept windows target seen es := by
  refine Kept.of_nothing_listed (fun event hevent => ?_) (canonicalsListed_of_file hes)
  have hplace : ∃ dir n, Inside windows target dir ∧ Component windows n ∧
      childPath windows target name = childPath windows dir n := ⟨target, name, Inside.refl, hname, rfl⟩
  rcases hes event hevent with h | h <;> rw [h] <;> exact hplace

end Kept

section Recursion

variable {σ : Type} {env : Prog.Environment DownloadCall DownloadAnswer σ} {windows : Bool}

/-- What `list` promises: the names are components. -/
def SafeListings (windows : Bool) (env : Prog.Environment DownloadCall DownloadAnswer σ) : Prop :=
  ∀ path s entries s', env (.list path) s (.ok entries) s' → ∀ entry ∈ entries, Component windows entry.name

theorem meets_downloadRemoteFile (remotePath localPath : String) (s : σ) :
    Meets env (downloadRemoteFile remotePath localPath) s
      (fun es => ∀ event ∈ es, event.1 = .createParent localPath ∨ event.1 = .download remotePath localPath)
      fun _ es => ⟨.download remotePath localPath, .ok ()⟩ ∈ es := by
  unfold downloadRemoteFile
  refine Meets.call (by simp) fun created s₁ _ => ?_
  cases created with
  | error message => exact Meets.done (by simp) fun _ h => nomatch h
  | ok _ =>
    refine Meets.call (by simp) fun downloaded s₂ _ => ?_
    cases downloaded with
    | error failure => exact Meets.done (by simp) fun _ h => nomatch h
    | ok _ => exact Meets.done (by simp) fun _ _ => by simp

theorem meets_downloadEntries (depth : Nat)
    (hdescend : ∀ remotePath localPath seen s,
      Meets env (downloadRemoteDirectory windows depth remotePath localPath seen) s
      (Kept windows localPath seen) fun seen' es => Grown seen es seen' ∧ FilesPlaced windows es remotePath localPath)
    (localPath : String) (entries : List Sftp.RemoteFileEntry)
    (hentries : ∀ entry ∈ entries, Component windows entry.name) (seen : List String) (s : σ) :
    Meets env (downloadEntries windows (downloadRemoteDirectory windows depth) localPath entries seen) s
      (Kept windows localPath seen) fun seen' es => Grown seen es seen' ∧ FilesIn windows es localPath entries ∧
        ∀ path found, ⟨.list path, .ok found⟩ ∈ es → ∃ entry ∈ entries, entry.isDirectory = true ∧ ∃ names,
          FolderAt es entry.path names path ∧
            FilesIn windows es (below windows (childPath windows localPath entry.name) names) found := by
  induction entries generalizing seen s with
  | nil =>
    refine Meets.done Kept.nil fun seen' h => ?_
    cases h
    exact ⟨Grown.nil, by simp [FilesIn], by simp⟩
  | cons entry rest ih =>
    have hname := hentries entry List.mem_cons_self
    have hrest := ih fun e he => hentries e (List.mem_cons_of_mem _ he)
    unfold downloadEntries
    cases hdir : entry.isDirectory with
    | true =>
      refine Meets.bind (hdescend entry.path (childPath windows localPath entry.name) seen s)
        (fun es h => h.child hname) fun seen₁ es s₁ hkept hchild => ?_
      obtain ⟨hgrown, hplaced⟩ := hchild
      refine (hrest seen₁ s₁).mono (fun es' h => (hkept.child hname).append hgrown h) ?_
      rintro seen' es' - ⟨hgrown', hfiles, hlisted⟩
      refine ⟨hgrown.trans hgrown', ?_, ?_⟩
      · intro e he hfile
        rcases List.mem_cons.mp he with rfl | he
        · rw [hdir] at hfile
          cases hfile
        · exact List.mem_append_right _ (hfiles e he hfile)
      · intro path found hmem
        rcases List.mem_append.mp hmem with hmem | hmem
        · obtain ⟨names, hat, hin⟩ := hplaced path found hmem
          exact ⟨entry, List.mem_cons_self, hdir, names, hat.mono (List.subset_append_left _ _),
            hin.mono (List.subset_append_left _ _)⟩
        · obtain ⟨e, he, hedir, names, hat, hin⟩ := hlisted path found hmem
          exact ⟨e, List.mem_cons_of_mem _ he, hedir, names, hat.mono (List.subset_append_right _ _),
            hin.mono (List.subset_append_right _ _)⟩
    | false =>
      refine Meets.bind (meets_downloadRemoteFile entry.path (childPath windows localPath entry.name) s)
        (fun es h => Kept.of_file hname h) fun _ es s₁ hfile hdone => ?_
      have hgrown : Grown seen es seen := by
        intro canonical c
        rw [canonicalsListed_of_file hfile]
        simp
      refine (hrest seen s₁).mono (fun es' h => (Kept.of_file hname hfile).append hgrown h) ?_
      rintro seen' es' - ⟨hgrown', hfiles, hlisted⟩
      refine ⟨hgrown.trans hgrown', ?_, ?_⟩
      · intro e he hefile
        rcases List.mem_cons.mp he with rfl | he
        · exact List.mem_append_left _ hdone
        · exact List.mem_append_right _ (hfiles e he hefile)
      · intro path found hmem
        rcases List.mem_append.mp hmem with hmem | hmem
        · rcases hfile _ hmem with h | h <;> cases h
        · obtain ⟨e, he, hedir, names, hat, hin⟩ := hlisted path found hmem
          exact ⟨e, List.mem_cons_of_mem _ he, hedir, names, hat.mono (List.subset_append_right _ _),
            hin.mono (List.subset_append_right _ _)⟩

theorem meets_downloadRemoteDirectory (henv : SafeListings windows env) (depth : Nat) : ∀ remotePath localPath seen s,
      Meets env (downloadRemoteDirectory windows depth remotePath localPath seen) s (Kept windows localPath seen)
        fun seen' es => Grown seen es seen' ∧ FilesPlaced windows es remotePath localPath := by
  induction depth with
  | zero => exact fun remotePath localPath seen s => Meets.more Kept.nil
  | succ depth ih =>
    intro remotePath localPath seen s
    have hresolved : ∀ answer, Kept windows localPath seen [⟨.resolve remotePath, answer⟩] := by
      intro answer
      refine Kept.of_nothing_listed (by simp [Placed]) fun canonical => ?_
      cases answer <;> rfl
    have hcreated : ∀ canonical answer, Kept windows localPath seen
        [⟨.resolve remotePath, .ok canonical⟩, ⟨.createDirectory localPath, answer⟩] := by
      intro canonical answer
      exact Kept.of_nothing_listed (by simp [Placed, Inside.refl]) fun _ => rfl
    unfold downloadRemoteDirectory
    refine Meets.call Kept.nil fun resolved s₁ _ => ?_
    cases resolved with
    | error failure => exact Meets.done (hresolved _) fun _ h => nomatch h
    | ok canonical =>
      rw [orFailure_ok, done_ok_bind]
      split
      case isTrue hseen =>
        refine Meets.done (hresolved _) fun seen' h => ?_
        cases h
        refine ⟨fun start c => ?_, fun path entries hmem => ?_⟩
        · simp [canonicalsListed]
        · simp at hmem
      case isFalse hnew =>
        refine Meets.call (hresolved _) fun created s₂ _ => ?_
        cases created with
        | error message => exact Meets.done (hcreated canonical _) fun _ h => nomatch h
        | ok _ =>
          refine Meets.call (hcreated canonical _) fun listed s₃ hlist => ?_
          cases listed with
          | error failure => exact Meets.done (Kept.nil.enter hnew) fun _ h => nomatch h
          | ok entries =>
            have hloop := meets_downloadEntries depth ih localPath entries (henv _ _ _ _ hlist)
              (canonical :: seen) s₃
            refine hloop.mono (fun es h => h.enter hnew) ?_
            rintro seen' es - ⟨hgrown, hfiles, hlisted⟩
            refine ⟨hgrown.enter, ?_⟩
            intro path found hmem
            have hsubset : es ⊆ ⟨.resolve remotePath, .ok canonical⟩ :: ⟨.createDirectory localPath, .ok ()⟩ ::
                ⟨.list remotePath, .ok entries⟩ :: es := fun e he => by simp [he]
            simp only [List.mem_cons, Sigma.mk.injEq, reduceCtorEq, false_and, false_or] at hmem
            rcases hmem with ⟨hpath, hfound⟩ | hmem
            · cases hpath
              cases hfound
              exact ⟨[], .here remotePath, hfiles.mono hsubset⟩
            · obtain ⟨entry, hentry, hdir, names, hat, hin⟩ := hlisted path found hmem
              exact ⟨entry.name :: names, .entry (by simp) hentry hdir (hat.mono hsubset), hin.mono hsubset⟩

theorem bounded_downloadRemoteDirectory (henv : SafeListings windows env) {folders : Finset String}
    (hfolders : ∀ path s canonical s', env (.resolve path) s (.ok canonical) s' → canonical ∈ folders)
    (depth : Nat) : ∀ remotePath localPath seen s, (folders \ seen.toFinset).card < depth →
      Bounded env (downloadRemoteDirectory windows depth remotePath localPath seen) s := by
  induction depth with
  | zero => exact fun _ _ _ _ h => absurd h (Nat.not_lt_zero _)
  | succ depth ih =>
    intro remotePath localPath seen s hdepth
    have hloop : ∀ localPath (entries : List Sftp.RemoteFileEntry),
        (∀ entry ∈ entries, Component windows entry.name) → ∀ seen s, (folders \ seen.toFinset).card < depth →
        Bounded env (downloadEntries windows (downloadRemoteDirectory windows depth) localPath entries seen) s := by
      intro localPath entries hentries
      induction entries with
      | nil => exact fun seen s _ => Bounded.done
      | cons entry rest ihrest =>
        have hrest := ihrest fun e he => hentries e (List.mem_cons_of_mem _ he)
        intro seen s hseen
        unfold downloadEntries
        split
        case isTrue =>
          refine Bounded.bind (ih _ _ _ _ hseen)
            (meets_downloadRemoteDirectory henv depth entry.path _ seen s) fun seen' es s' h => ?_
          refine hrest seen' s' (lt_of_le_of_lt (Finset.card_le_card ?_) hseen)
          refine Finset.sdiff_subset_sdiff (Finset.Subset.refl _) fun c hc => ?_
          exact List.mem_toFinset.mpr ((h.1 "" c).mpr (Or.inl (List.mem_toFinset.mp hc)))
        case isFalse =>
          refine Bounded.bind ?_ (meets_downloadRemoteFile _ _ s) fun _ es s' _ => hrest seen s' hseen
          refine Bounded.call fun created s₁ _ => ?_
          cases created with
          | error message => exact Bounded.done
          | ok _ =>
            refine Bounded.call fun downloaded s₂ _ => ?_
            cases downloaded <;> exact Bounded.done
    unfold downloadRemoteDirectory
    refine Bounded.call fun resolved s₁ hresolve => ?_
    cases resolved with
    | error failure => exact Bounded.done
    | ok canonical =>
      rw [orFailure_ok, done_ok_bind]
      split
      case isTrue => exact Bounded.done
      case isFalse hnew =>
        refine Bounded.call fun created s₂ _ => ?_
        cases created with
        | error message => exact Bounded.done
        | ok _ =>
          refine Bounded.call fun listed s₃ hlist => ?_
          cases listed with
          | error failure => exact Bounded.done
          | ok entries =>
            refine hloop localPath entries (henv _ _ _ _ hlist) (canonical :: seen) s₃ ?_
            have hmem : canonical ∈ folders \ seen.toFinset :=
              Finset.mem_sdiff.mpr ⟨hfolders _ _ _ _ hresolve, fun h => hnew (List.mem_toFinset.mp h)⟩
            have hless : (folders \ (canonical :: seen).toFinset).card < (folders \ seen.toFinset).card := by
              refine Finset.card_lt_card (Finset.ssubset_iff_of_subset ?_ |>.mpr ⟨canonical, hmem, ?_⟩)
              · exact Finset.sdiff_subset_sdiff (Finset.Subset.refl _) fun c hc => by
                  rw [List.toFinset_cons]
                  exact Finset.mem_insert_of_mem hc
              · simp
            omega

/-- The folder that a listing read, where the canonical form of a path does not change. -/
def folderRead (canon : String → Option String) (event : DownloadEvent) : Option String :=
  match event.1 with
  | .list path => canon path
  | _ => none

/-- The canonical paths that were looked up in the set are those of the folders that were read. -/
def ReadsListed (canon : String → Option String) (es : List DownloadEvent) : Prop :=
  ∀ start, canonicalsListed start es = es.filterMap (folderRead canon)

section ReadsListed

variable {canon : String → Option String} {es es' : List DownloadEvent} {remotePath localPath : String}

theorem ReadsListed.append (h : ReadsListed canon es) (h' : ReadsListed canon es') : ReadsListed canon (es ++ es') := by
  intro start
  rw [canonicalsListed_append, List.filterMap_append, h, h']

theorem ReadsListed.of_file (hes : ∀ event ∈ es,
    event.1 = .createParent localPath ∨ event.1 = .download remotePath localPath) : ReadsListed canon es := by
  intro start
  rw [canonicalsListed_of_file hes, eq_comm, List.filterMap_eq_nil_iff]
  intro event hevent
  rcases hes event hevent with h | h <;> rw [folderRead, h]

theorem ReadsListed.enter {canonical : String} {answer : DownloadAnswer (.list remotePath)}
    (hcanon : canon remotePath = some canonical) (h : ReadsListed canon es) :
    ReadsListed canon (⟨.resolve remotePath, .ok canonical⟩ :: ⟨.createDirectory localPath, .ok ()⟩ ::
      ⟨.list remotePath, answer⟩ :: es) := by
  intro start
  have hread : folderRead canon ⟨.list remotePath, answer⟩ = some canonical := hcanon
  rw [List.filterMap_cons_none rfl, List.filterMap_cons_none rfl, List.filterMap_cons_some hread, ← h canonical]
  rfl

end ReadsListed

theorem meets_readsListed {canon : String → Option String}
    (hcanon : ∀ path s answer s', env (.resolve path) s answer s' → canon path = answer.toOption) (depth : Nat) :
    ∀ remotePath localPath seen s,
      Meets env (downloadRemoteDirectory windows depth remotePath localPath seen) s (ReadsListed canon)
        fun _ _ => True := by
  induction depth with
  | zero => exact fun _ _ _ _ => Meets.more fun _ => rfl
  | succ depth ih =>
    intro remotePath localPath seen s
    have hloop : ∀ localPath (entries : List Sftp.RemoteFileEntry) seen s,
        Meets env (downloadEntries windows (downloadRemoteDirectory windows depth) localPath entries seen) s
          (ReadsListed canon) fun _ _ => True := by
      intro localPath entries
      induction entries with
      | nil => exact fun _ _ => Meets.done (fun _ => rfl) fun _ _ => trivial
      | cons entry rest ihrest =>
        intro seen s
        unfold downloadEntries
        split
        case isTrue =>
          refine Meets.bind (ih _ _ _ _) (fun _ h => h) fun seen' es s' hes _ => ?_
          exact (ihrest seen' s').mono (fun es' h => hes.append h) fun _ _ _ _ => trivial
        case isFalse =>
          refine Meets.bind (meets_downloadRemoteFile _ _ s) (fun _ h => .of_file h) fun _ es s' hes _ => ?_
          exact (ihrest seen s').mono (fun es' h => (ReadsListed.of_file hes).append h) fun _ _ _ _ => trivial
    unfold downloadRemoteDirectory
    refine Meets.call (fun _ => rfl) fun resolved s₁ hresolve => ?_
    cases resolved with
    | error failure => exact Meets.done (fun _ => rfl) fun _ _ => trivial
    | ok canonical =>
      have hpath : canon remotePath = some canonical := hcanon _ _ _ _ hresolve
      rw [orFailure_ok, done_ok_bind]
      split
      case isTrue => exact Meets.done (fun _ => rfl) fun _ _ => trivial
      case isFalse =>
        refine Meets.call (fun _ => rfl) fun created s₂ _ => ?_
        cases created with
        | error message => exact Meets.done (fun _ => rfl) fun _ _ => trivial
        | ok _ =>
          refine Meets.call (fun _ => rfl) fun listed s₃ _ => ?_
          have hempty : ReadsListed canon [] := fun _ => rfl
          cases listed with
          | error failure => exact Meets.done (hempty.enter hpath) fun _ _ => trivial
          | ok entries =>
            exact (hloop localPath entries (canonical :: seen) s₃).mono (fun es hes => hes.enter hpath)
              fun _ _ _ _ => trivial

theorem meets_downloadRemoteEntry {depth : Nat} {remotePath localPath : String} {overwrite : Bool}
    {P D : List DownloadEvent → Prop} (hnil : P [])
    (hP : ∀ answer es, P es → P (⟨.localTargetExists localPath, answer⟩ :: es))
    (hD : ∀ answer es, D es → D (⟨.localTargetExists localPath, answer⟩ :: es))
    (h : ∀ s, Meets env (downloadRemoteDirectory windows depth remotePath localPath []) s P fun _ es => D es)
    (s : σ) : Meets env (downloadRemoteEntry windows depth true remotePath localPath overwrite) s P
      fun _ es => D es := by
  have hfolder : ∀ s, Meets env (downloadRemoteDirectory windows depth remotePath localPath [] >>= fun _ => pure ())
      s P fun (_ : Unit) es => D es := by
    intro s
    refine Meets.bind (h s) (fun _ h => h) fun seen es s' hes hend => Meets.done ?_ fun _ _ => ?_
    · rwa [List.append_nil]
    · rwa [List.append_nil]
  unfold downloadRemoteEntry
  cases overwrite with
  | true => exact hfolder s
  | false =>
    refine Meets.call hnil fun targetExists s₁ _ => ?_
    cases targetExists with
    | true => exact Meets.done (hP true [] hnil) fun _ h => nomatch h
    | false => exact (hfolder s₁).mono (fun es h => hP false es h) fun _ es _ h => hD false es h

theorem bounded_downloadRemoteEntry {depth : Nat} {remotePath localPath : String} {overwrite : Bool}
    (h : ∀ s, Bounded env (downloadRemoteDirectory windows depth remotePath localPath []) s) (s : σ) :
    Bounded env (downloadRemoteEntry windows depth true remotePath localPath overwrite) s := by
  have hfolder : ∀ s, Bounded env
      (downloadRemoteDirectory windows depth remotePath localPath [] >>= fun _ => (pure () : DownloadM Unit)) s := by
    intro s
    have hmeets : Meets env (downloadRemoteDirectory windows depth remotePath localPath []) s (fun _ => True)
        fun _ _ => True := fun _ _ _ _ => ⟨trivial, fun _ _ => trivial⟩
    exact Bounded.bind (h s) hmeets fun _ _ _ _ => Bounded.done
  unfold downloadRemoteEntry
  cases overwrite with
  | true => exact hfolder s
  | false =>
    refine Bounded.call fun targetExists s₁ _ => ?_
    cases targetExists with
    | true => exact Bounded.done
    | false => exact hfolder s₁

end Recursion

section Server

variable {σ : Type} {platform : Sftp.Platform} {server : (q : Sftp.Request) → σ → Sftp.Response q × σ}
  {targetExists : String → σ → Bool} {create : DownloadCall → σ → Except String Unit × σ}

theorem resolve_run (path : String) (s : σ) : (Sftp.resolve path).run server s =
    some ((server (.canonicalize (Sftp.remotePath path)) s).1.mapError .sftp,
      (server (.canonicalize (Sftp.remotePath path)) s).2) := rfl

theorem canonicalize_of_resolve {path canonical : String} {s s' : σ}
    (h : (Sftp.resolve path).run server s = some (.ok canonical, s')) :
    (server (.canonicalize (Sftp.remotePath path)) s).1 = .ok canonical := by
  rw [resolve_run, Option.some.injEq, Prod.mk.injEq] at h
  cases hanswer : (server (.canonicalize (Sftp.remotePath path)) s).1 with
  | error message =>
    rw [hanswer] at h
    exact nomatch h.1
  | ok answer =>
    rw [hanswer] at h
    exact congrArg Except.ok (Except.ok.inj h.1)

theorem safeListings_service : SafeListings platform.windows (service platform server targetExists create) := by
  intro path s entries s' hrun entry hentry
  have hlist : (Sftp.list platform path).run server s = some (.ok entries, s') := hrun
  obtain ⟨dir, s₁, hresolve, -⟩ := Prog.run_bind_eq_ok hlist
  exact .of_isSafeEntryName (Sftp.list_listed (canonicalize_of_resolve hresolve) hlist entry hentry).2

/-- The server is asked for what the entries are called: for each folder that was listed and each of its
files, under the path that the listing gave. -/
structure FilesDownloaded (platform : Sftp.Platform) (root target : String) (es : List DownloadEvent) : Prop where
  folder : ∀ path entries, ⟨.list path, .ok entries⟩ ∈ es →
    (Sftp.list platform path).first = some (.canonicalize path) ∧
      ∃ names, FolderAt es root names path ∧ FilesIn platform.windows es (below platform.windows target names) entries
  file : ∀ path entries, ⟨.list path, .ok entries⟩ ∈ es → ∀ entry ∈ entries, entry.isDirectory = false →
    ∀ fuel localPath, (Sftp.EntryOp.download fuel localPath).sentPath entry = some entry.path

/-- No path of a listed folder or file changes on its way to the server. -/
def PathsKept (es : List DownloadEvent) : Prop :=
  ∀ path entries, ⟨.list path, .ok entries⟩ ∈ es → Sftp.remotePath path = path ∧
    ∀ entry ∈ entries, entry.isDirectory = false → Sftp.remotePath entry.path = entry.path

theorem filesDownloaded_iff {root target : String} {es : List DownloadEvent}
    (hplaced : FilesPlaced platform.windows es root target) :
    FilesDownloaded platform root target es ↔ PathsKept es := by
  have hlist : ∀ path : String, (Sftp.list platform path).first = some (.canonicalize (Sftp.remotePath path)) :=
    fun _ => rfl
  have hsent : ∀ (entry : Sftp.RemoteFileEntry) fuel localPath,
      (Sftp.EntryOp.download fuel localPath).sentPath entry = some (Sftp.remotePath entry.path) :=
    fun entry fuel localPath => Sftp.sentPath_eq _ entry fun _ h => nomatch h
  constructor
  · intro h path entries hmem
    obtain ⟨hfolder, -⟩ := h.folder path entries hmem
    rw [hlist, Option.some.injEq, Sftp.Request.canonicalize.injEq] at hfolder
    refine ⟨hfolder, fun entry hentry hfile => ?_⟩
    have hfetched := h.file path entries hmem entry hentry hfile 0 ""
    rwa [hsent, Option.some.injEq] at hfetched
  · intro h
    constructor
    · intro path entries hmem
      rw [hlist, (h path entries hmem).1]
      exact ⟨rfl, hplaced path entries hmem⟩
    · intro path entries hmem entry hentry hfile fuel localPath
      rw [hsent, (h path entries hmem).2 entry hentry hfile]

/-- What holds of a trace of a folder's download: where the folders above the target are there, nothing
outside the target is created or written; no canonical folder is listed twice; and if the download has
ended well, the files of each listed folder have been downloaded to their places. -/
structure Downloaded (platform : Sftp.Platform) (server : (q : Sftp.Request) → σ → Sftp.Response q × σ)
    (root target : String) (es : List DownloadEvent) (p : DownloadM Unit) : Prop where
  contained : ∀ present : String → Prop,
    (∀ folder, Above platform.windows folder target → present folder) → ∀ event ∈ es, ∀ path,
      touches platform.windows present event.1 path → Inside platform.windows target path
  once : (canonicalsListed "" es).Nodup
  readOnce : ∀ canon : String → Option String,
    (∀ path s, (server (.canonicalize path) s).1.toOption = canon path) →
      (es.filterMap (folderRead fun path => canon (Sftp.remotePath path))).Nodup
  files : p = .done (.ok ()) → (FilesDownloaded platform root target es ↔ PathsKept es)

/-- Every trace of a folder's download keeps this; and the recursion ends if the server has finitely many
canonical paths. -/
theorem folder_download (platform : Sftp.Platform) (server : (q : Sftp.Request) → σ → Sftp.Response q × σ)
    (targetExists : String → σ → Bool) (create : DownloadCall → σ → Except String Unit × σ)
    (remotePath localPath : String) (overwrite : Bool) :
    (∀ depth s es p s', Trace (service platform server targetExists create)
        (downloadRemoteEntry platform.windows depth true remotePath localPath overwrite) s es p s' →
      Downloaded platform server remotePath localPath es p) ∧
    ∀ folders : Finset String,
      (∀ path s canonical, (server (.canonicalize path) s).1 = .ok canonical → canonical ∈ folders) →
      ∀ depth, folders.card < depth → ∀ s es p s', Trace (service platform server targetExists create)
        (downloadRemoteEntry platform.windows depth true remotePath localPath overwrite) s es p s' →
      p ≠ .more ∧ (canonicalsListed "" es).length ≤ folders.card := by
  have henv : SafeListings platform.windows (service platform server targetExists create) := safeListings_service
  have hkept : ∀ depth s, Meets (service platform server targetExists create)
      (downloadRemoteEntry platform.windows depth true remotePath localPath overwrite) s
      (Kept platform.windows localPath []) fun _ es => FilesPlaced platform.windows es remotePath localPath := by
    intro depth s
    refine meets_downloadRemoteEntry Kept.nil ?_ ?_ (fun s => ?_) s
    · intro answer es h
      have hlook : Kept platform.windows localPath [] [⟨.localTargetExists localPath, answer⟩] :=
        Kept.of_nothing_listed (by simp [Placed]) fun _ => rfl
      have hgrown : Grown [] [⟨.localTargetExists localPath, answer⟩] [] := by simp [Grown, canonicalsListed]
      exact hlook.append hgrown h
    · intro answer es h path entries hmem
      rcases List.mem_cons.mp hmem with hmem | hmem
      · cases hmem
      · obtain ⟨names, hat, hin⟩ := h path entries hmem
        exact ⟨names, hat.mono (List.subset_cons_self _ _), hin.mono (List.subset_cons_self _ _)⟩
    · exact (meets_downloadRemoteDirectory henv depth remotePath localPath [] s).mono (fun _ h => h)
        fun _ _ _ h => h.2
  constructor
  · intro depth s es p s' htrace
    obtain ⟨hkept, hplaced⟩ := hkept depth s es p s' htrace
    constructor
    case contained =>
      intro present hpresent event hevent path htouches
      exact (hkept.placed event hevent).touches_inside hpresent htouches
    case once => exact hkept.nodup ""
    case readOnce =>
      intro canon hcanon
      have hanswer : ∀ path s answer s',
          service platform server targetExists create (.resolve path) s answer s' →
          canon (Sftp.remotePath path) = answer.toOption := by
        intro path s answer s' h
        have hrun : (Sftp.resolve path).run server s = some (answer, s') := h
        rw [resolve_run, Option.some.injEq, Prod.mk.injEq] at hrun
        rw [← hcanon (Sftp.remotePath path) s, ← hrun.1]
        cases (server (.canonicalize (Sftp.remotePath path)) s).1 <;> rfl
      have hreads : Meets (service platform server targetExists create)
          (downloadRemoteEntry platform.windows depth true remotePath localPath overwrite) s
          (ReadsListed fun path => canon (Sftp.remotePath path)) fun _ _ => True := by
        refine meets_downloadRemoteEntry (fun _ => rfl) ?_ (fun _ _ _ => trivial)
          (meets_readsListed hanswer depth remotePath localPath []) s
        intro answer es h start
        rw [List.filterMap_cons_none rfl, ← h start]
        rfl
      rw [← (hreads es p s' htrace).1 ""]
      exact hkept.nodup ""
    case files =>
      intro hend
      exact filesDownloaded_iff (hplaced () hend)
  · intro folders hfolders depth hdepth s es p s' htrace
    have hresolve : ∀ path s canonical s',
        service platform server targetExists create (.resolve path) s (.ok canonical) s' → canonical ∈ folders :=
      fun path s canonical s' h => hfolders _ s canonical (canonicalize_of_resolve h)
    have hbounded : ∀ s, Bounded (service platform server targetExists create)
        (downloadRemoteDirectory platform.windows depth remotePath localPath []) s := by
      intro s
      refine bounded_downloadRemoteDirectory henv hresolve depth _ _ _ _ ?_
      rwa [List.toFinset_nil, Finset.sdiff_empty]
    refine ⟨bounded_downloadRemoteEntry hbounded s es p s' htrace, ?_⟩
    obtain ⟨hkept, -⟩ := hkept depth s es p s' htrace
    rw [← List.toFinset_card_of_nodup (hkept.nodup "")]
    refine Finset.card_le_card fun c hc => ?_
    obtain ⟨path, hpath⟩ := hkept.answered "" c (List.mem_toFinset.mp hc)
    obtain ⟨s₁, s₂, hanswer⟩ := htrace.answered _ hpath
    exact hresolve path s₁ c s₂ hanswer

end Server

variable (names : List String)

/-- A server whose folder `/d` holds empty files of the given names, and a local file system where every
call succeeds. -/
def filesServer (q : Sftp.Request) (s : Unit) : Sftp.Response q × Unit :=
  match q with
  | .canonicalize _ => (.ok "/d", s)
  | .readDir _ => (.ok (names.map fun name => ⟨name, ⟨false, false, some 0, some 0o644, none⟩⟩), s)
  | .metadata .remote _ => (.ok ⟨false, false, some 0, some 0o644, none⟩, s)
  | .openFile side path flags =>
    (.ok { side := side, path := path, pos := 0, append := flags.append, failed := false }, s)
  | .seek file _ => (.ok file, s)
  | .readChunk file _ => (.ok ([], file), s)
  | .flush _ | .rename .. => (.ok (), s)
  | .progress _ => (true, s)
  | .metadata .disk _ | .symlinkMetadata _ | .readFile _ | .writeAll .. | .shutdown _ | .createDir _
  | .removeFile _ | .removeDir _ | .setMetadata .. => (.error "no such file", s)

def filesService : Prog.Environment DownloadCall DownloadAnswer Unit :=
  service ⟨false, id⟩ (filesServer names) (fun _ _ => false) fun _ s => (.ok (), s)

def filesEntry (name : String) : Sftp.RemoteFileEntry := ⟨name, "/d/" ++ name, false, 0, 0, 0o644⟩

def fileEvents : List DownloadEvent :=
  names.flatMap fun name =>
    [⟨.createParent ("/t/" ++ name), .ok ()⟩, ⟨.download ("/d/" ++ name) ("/t/" ++ name), .ok ()⟩]

def folderEvents : List DownloadEvent :=
  ⟨.resolve "/d", .ok "/d"⟩ :: ⟨.createDirectory "/t", .ok ()⟩ :: ⟨.list "/d", .ok (names.map filesEntry)⟩ ::
    fileEvents names

/-- A server whose folder `/d` holds a folder `s` with a link `up` back to `/d`. -/
def loopServer (q : Sftp.Request) (s : Unit) : Sftp.Response q × Unit :=
  match q with
  | .canonicalize path => (.ok (if path = "/d/s" then "/d/s" else "/d"), s)
  | .readDir path => (.ok (if path = "/d" then
      [⟨"a", ⟨false, false, some 0, some 0o644, none⟩⟩, ⟨"s", ⟨true, false, none, some 0o755, none⟩⟩]
    else [⟨"up", ⟨false, true, none, none, none⟩⟩, ⟨"b", ⟨false, false, some 0, some 0o644, none⟩⟩]), s)
  | .metadata .remote path => (.ok ⟨path == "/d/s/up", false, some 0, some 0o644, none⟩, s)
  | q => filesServer [] q s

def loopService : Prog.Environment DownloadCall DownloadAnswer Unit :=
  service ⟨false, id⟩ loopServer (fun _ _ => false) fun _ s => (.ok (), s)

def topEntries : List Sftp.RemoteFileEntry :=
  [⟨"s", "/d/s", true, 0, 0, 0o755⟩, ⟨"a", "/d/a", false, 0, 0, 0o644⟩]

def nestedEntries : List Sftp.RemoteFileEntry :=
  [⟨"up", "/d/s/up", true, 0, 0, 0o644⟩, ⟨"b", "/d/s/b", false, 0, 0, 0o644⟩]

def loopEvents : List DownloadEvent :=
  [⟨.resolve "/d", .ok "/d"⟩, ⟨.createDirectory "/t", .ok ()⟩, ⟨.list "/d", .ok topEntries⟩,
    ⟨.resolve "/d/s", .ok "/d/s"⟩, ⟨.createDirectory "/t/s", .ok ()⟩, ⟨.list "/d/s", .ok nestedEntries⟩,
    ⟨.resolve "/d/s/up", .ok "/d"⟩,
    ⟨.createParent "/t/s/b", .ok ()⟩, ⟨.download "/d/s/b" "/t/s/b", .ok ()⟩,
    ⟨.createParent "/t/a", .ok ()⟩, ⟨.download "/d/a" "/t/a", .ok ()⟩]

theorem trace_loop : Trace loopService (downloadRemoteEntry false 4 true "/d" "/t" true) () loopEvents
    (.done (.ok ())) () := by
  have hlist : (Sftp.list ⟨false, id⟩ "/d").run loopServer () = some (.ok topEntries, ()) := by decide
  have hnested : (Sftp.list ⟨false, id⟩ "/d/s").run loopServer () = some (.ok nestedEntries, ()) := by decide
  have hfetch : (Sftp.download 1 "/d/s/b" "/t/s/b").run loopServer () = some (.ok (), ()) := by decide
  have hlast : (Sftp.download 1 "/d/a" "/t/a").run loopServer () = some (.ok (), ()) := by decide
  exact .cons rfl (.cons rfl (.cons hlist (.cons rfl (.cons rfl (.cons hnested (.cons rfl
    (.cons rfl (.cons ⟨1, hfetch⟩ (.cons rfl (.cons ⟨1, hlast⟩ (.nil _ _)))))))))))

/-- The files of a folder in the folder are downloaded too, and the link that leads back is not followed. -/
theorem folder_download_loop : FilesDownloaded ⟨false, id⟩ "/d" "/t" loopEvents ∧
    (canonicalsListed "" loopEvents).length ≤ 2 := by
  have hkept : PathsKept loopEvents := by
    intro path entries hmem
    simp only [loopEvents, List.mem_cons, Sigma.mk.injEq, reduceCtorEq, false_and, false_or, List.not_mem_nil,
      or_false] at hmem
    rcases hmem with ⟨hpath, hentries⟩ | ⟨hpath, hentries⟩
    · cases hpath
      cases hentries
      exact ⟨by decide, by decide⟩
    · cases hpath
      cases hentries
      exact ⟨by decide, by decide⟩
  obtain ⟨hdownload, hends⟩ := folder_download ⟨false, id⟩ loopServer (fun _ _ => false) (fun _ s => (.ok (), s))
    "/d" "/t" true
  have hfolders : ∀ path s canonical, (loopServer (.canonicalize path) s).1 = .ok canonical →
      canonical ∈ ({"/d", "/d/s"} : Finset String) := by
    rintro path s canonical ⟨⟩
    show (if path = "/d/s" then "/d/s" else "/d") ∈ _
    split
    · decide
    · decide
  exact ⟨((hdownload 4 () _ _ () trace_loop).files rfl).mpr hkept,
    (hends _ hfolders 4 (by decide) () _ _ () trace_loop).2⟩

/-- A file `a ` is not asked for: the server is asked for the file `a`, which is there as well. -/
theorem folder_download_asks_other :
    Trace (filesService ["a", "a "]) (downloadRemoteEntry false 2 true "/d" "/t" true) ()
        (folderEvents ["a", "a "]) (.done (.ok ())) () ∧
      ¬FilesDownloaded ⟨false, id⟩ "/d" "/t" (folderEvents ["a", "a "]) := by
  have hlist : (Sftp.list ⟨false, id⟩ "/d").run (filesServer ["a", "a "]) () =
      some (.ok (["a", "a "].map filesEntry), ()) := by decide
  have hfetch : (Sftp.download 1 "/d/a" "/t/a").run (filesServer ["a", "a "]) () = some (.ok (), ()) := by decide
  have hother : (Sftp.download 1 "/d/a " "/t/a ").run (filesServer ["a", "a "]) () = some (.ok (), ()) := by
    decide
  refine ⟨.cons rfl (.cons rfl (.cons hlist (.cons rfl (.cons ⟨1, hfetch⟩ (.cons rfl
    (.cons ⟨1, hother⟩ (.nil _ _))))))), fun h => ?_⟩
  have hsent := h.file "/d" (["a", "a "].map filesEntry) (by simp [folderEvents]) (filesEntry "a ") (by simp) rfl 0 ""
  exact absurd hsent (by decide)

end Portix.SftpWorkspace
