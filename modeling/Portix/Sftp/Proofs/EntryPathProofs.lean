import Portix.Lib.Trace
import Portix.Sftp.Client

/-!
# Proofs: operations on a listed entry

`list` puts `join dir name` into an entry. Every operation sends that path through `remotePath`,
which leaves an absolute path alone exactly when it does not end with white space. A removal then
goes on with the path that REALPATH answers, and a copy with what is listed below it.
-/

namespace Portix.Sftp

open Lib

variable {path name base : String}

theorem isAbsolute_iff : isAbsolute path = true ↔ ∃ cs, path.toList = '/' :: cs := by
  unfold isAbsolute
  cases hp : path.toList with
  | nil => simp
  | cons c cs => simp

theorem isWhitespace_slash : isWhitespace '/' = false := by decide

theorem isDartWhitespace_slash : isDartWhitespace '/' = false := by decide

theorem remotePath_of_isAbsolute (habs : isAbsolute path = true) : remotePath path = trim path := by
  obtain ⟨cs, hcs⟩ := isAbsolute_iff.mp habs
  obtain ⟨ds, hds⟩ := toList_trimBy_cons hcs isWhitespace_slash
  have hds' : (trim path).toList = '/' :: ds := hds
  have hempty : trim path ≠ "" := fun he => by simp [he] at hds'
  have hhome : trim path ≠ "~" := fun he => by simp [he] at hds'
  have htilde : "~/".toList = ['~', '/'] := rfl
  have hstrip : stripPrefix "~/" (trim path) = none :=
    stripPrefix_eq_none htilde hds' (by decide)
  simp [remotePath, hempty, hhome, hstrip]

theorem remotePath_eq_self_iff (habs : isAbsolute path = true) :
    remotePath path = path ↔ lastIs isWhitespace path = false := by
  obtain ⟨cs, hcs⟩ := isAbsolute_iff.mp habs
  rw [remotePath_of_isAbsolute habs]
  exact trimBy_eq_self_iff hcs isWhitespace_slash

theorem isSafeEntryName_ne_empty {windows : Bool} (hsafe : isSafeEntryName name windows = true) : name ≠ "" := by
  intro he
  simp [isSafeEntryName, he] at hsafe

theorem isSafeEntryName_ne_dotdot {windows : Bool} (hsafe : isSafeEntryName name windows = true) : name ≠ ".." := by
  intro he
  simp [isSafeEntryName, he] at hsafe

theorem join_eq_append (dir : String) : ∃ base : String,
    (∀ name, join dir name = base ++ name) ∧ (isAbsolute dir = true → isAbsolute base = true) := by
  by_cases hend : endsWith dir '/' = true
  · exact ⟨dir, fun name => by simp [join, hend], id⟩
  · refine ⟨dir ++ "/", fun name => by simp [join, hend], fun habs => ?_⟩
    obtain ⟨cs, hcs⟩ := isAbsolute_iff.mp habs
    exact isAbsolute_iff.mpr ⟨cs ++ ['/'], by simp [hcs]⟩

theorem isAbsolute_append (habs : isAbsolute base = true) : isAbsolute (base ++ name) = true := by
  obtain ⟨cs, hcs⟩ := isAbsolute_iff.mp habs
  exact isAbsolute_iff.mpr ⟨cs ++ name.toList, by simp [hcs]⟩

theorem lastIs_append {p : Char → Bool} (hne : name ≠ "") : lastIs p (base ++ name) = lastIs p name := by
  have hlist : name.toList ≠ [] := fun he => hne (String.toList_inj.mp (by rw [he]; rfl))
  unfold lastIs
  rw [String.toList_append, List.getLast?_append_of_ne_nil _ hlist]

theorem isAbsolute_join {dir : String} (habs : isAbsolute dir = true) : isAbsolute (join dir name) = true := by
  obtain ⟨base, hbase, hbabs⟩ := join_eq_append dir
  rw [hbase]
  exact isAbsolute_append (hbabs habs)

theorem lastIs_join {p : Char → Bool} {dir : String} (hne : name ≠ "") : lastIs p (join dir name) = lastIs p name := by
  obtain ⟨base, hbase, -⟩ := join_eq_append dir
  rw [hbase]
  exact lastIs_append hne

/-- What `list` promises about an entry: a safe name, and the name joined to the folder. -/
def ListedIn (platform : Platform) (dir : String) (entry : RemoteFileEntry) : Prop :=
  entry.path = join dir entry.name ∧ isSafeEntryName entry.name platform.windows = true

section Listing

variable {σ : Type} {h : (q : Request) → σ → Response q × σ} {platform : Platform}

theorem listEntries_listed {dir : String} (found : List DirEntry) : ∀ {s s' : σ} {entries : List RemoteFileEntry},
      (listEntries platform dir found).run h s = some (.ok entries, s') →
      ∀ entry ∈ entries, ListedIn platform dir entry := by
  induction found with
  | nil =>
    intro s s' entries hrun entry hmem
    simp only [listEntries, Prog.pure_eq, Prog.run_done, Option.some.injEq, Prod.mk.injEq, Except.ok.injEq] at hrun
    rw [← hrun.1] at hmem
    exact absurd hmem (by simp)
  | cons found rest ih =>
    intro s s' entries hrun
    unfold listEntries at hrun
    by_cases hsafe : isSafeEntryName found.fileName platform.windows = true
    · simp only [hsafe, Bool.not_true, Bool.false_eq_true, if_false] at hrun
      obtain ⟨attrs, s1, -, hrun⟩ := Prog.run_bind_eq_ok hrun
      obtain ⟨later, s2, hlater, hrun⟩ := Prog.run_bind_eq_ok hrun
      simp only [Prog.pure_eq, Prog.run_done, Option.some.injEq, Prod.mk.injEq, Except.ok.injEq] at hrun
      intro entry hmem
      rw [← hrun.1] at hmem
      rcases List.mem_cons.mp hmem with rfl | hmem
      · exact ⟨rfl, hsafe⟩
      · exact ih hlater entry hmem
    · simp only [hsafe, Bool.not_false, if_true] at hrun
      exact ih hrun

theorem list_listed {dir : String} {s s' : σ} {entries : List RemoteFileEntry}
    (hdir : (h (.canonicalize (remotePath path)) s).1 = .ok dir)
    (hrun : (list platform path).run h s = some (.ok entries, s')) :
    ∀ entry ∈ entries, ListedIn platform dir entry := by
  unfold list resolve at hrun
  obtain ⟨dir', s1, hresolve, hrun⟩ := Prog.run_bind_eq_ok hrun
  have hdir' : dir' = dir := by
    rw [Prog.call_bind, Prog.run_ask, hdir] at hresolve
    simp only [orSftp_ok, Prog.run_done, Option.some.injEq, Prod.mk.injEq, Except.ok.injEq] at hresolve
    exact hresolve.1.symm
  subst hdir'
  obtain ⟨answer, s2, -, hrun⟩ := Prog.run_bind_eq_ok hrun
  obtain ⟨found, s3, -, hrun⟩ := Prog.run_bind_eq_ok hrun
  obtain ⟨sorted, s4, hsorted, hrun⟩ := Prog.run_bind_eq_ok hrun
  simp only [Prog.pure_eq, Prog.run_done, Option.some.injEq, Prod.mk.injEq, Except.ok.injEq] at hrun
  intro entry hmem
  rw [← hrun.1] at hmem
  exact listEntries_listed found hsorted entry ((List.mem_insertionSort _).mp hmem)

end Listing

theorem sentPath_eq (op : EntryOp) (entry : RemoteFileEntry) (hop : ∀ fuel, op ≠ .deleteRemotePath fuel) :
    op.sentPath entry = some (remotePath entry.path) := by
  cases op with
  | deleteRemotePath fuel => exact absurd rfl (hop fuel)
  | _ => rfl

theorem isDartWhitespace_of_isWhitespace (c : Char) (hc : isWhitespace c = true) : isDartWhitespace c = true := by
  simp [isDartWhitespace, hc]

section Entry

variable {platform : Platform} {dir : String} {entry : RemoteFileEntry}

theorem ListedIn.isAbsolute_path (hlisted : ListedIn platform dir entry)
    (habs : isAbsolute dir = true) : isAbsolute entry.path = true := by
  rw [hlisted.1]
  exact isAbsolute_join habs

theorem ListedIn.lastIs_path (hlisted : ListedIn platform dir entry) (p : Char → Bool) :
    lastIs p entry.path = lastIs p entry.name := by
  rw [hlisted.1]
  exact lastIs_join (isSafeEntryName_ne_empty hlisted.2)

theorem ListedIn.path_ne_root (hlisted : ListedIn platform dir entry)
    (habs : isAbsolute dir = true) : entry.path ≠ "/" := by
  obtain ⟨base, hbase, hbabs⟩ := join_eq_append dir
  obtain ⟨cs, hcs⟩ := isAbsolute_iff.mp (hbabs habs)
  intro hroot
  have hlist : base.toList ++ entry.name.toList = ['/'] := by
    rw [← String.toList_append, ← hbase, ← hlisted.1, hroot]; rfl
  rw [hcs, List.cons_append, List.cons.injEq, List.append_eq_nil_iff] at hlist
  exact isSafeEntryName_ne_empty hlisted.2 (String.toList_inj.mp (by rw [hlist.2.2]; rfl))

theorem sentPath_deleteRemotePath_iff (hlisted : ListedIn platform dir entry)
    (habs : isAbsolute dir = true) (fuel : Nat) :
    (EntryOp.deleteRemotePath fuel).sentPath entry = some entry.path ↔ lastIs isDartWhitespace entry.name = false := by
  have hpabs := hlisted.isAbsolute_path habs
  obtain ⟨cs, hcs⟩ := isAbsolute_iff.mp hpabs
  have hkeep := trimBy_eq_self_iff hcs isDartWhitespace_slash
  rw [hlisted.lastIs_path] at hkeep
  obtain ⟨ds, hds⟩ := toList_trimBy_cons hcs isDartWhitespace_slash
  have hds' : (dartTrim entry.path).toList = '/' :: ds := hds
  have hname := isSafeEntryName_ne_dotdot hlisted.2
  have hempty : dartTrim entry.path ≠ "" := fun he => by simp [he] at hds'
  have hhome : dartTrim entry.path ≠ "~" := fun he => by simp [he] at hds'
  have hsent : (EntryOp.deleteRemotePath fuel).sentPath entry =
      if dartTrim entry.path = "/" then none else some (remotePath (dartTrim entry.path)) := by
    by_cases hroot : dartTrim entry.path = "/"
    · simp [EntryOp.sentPath, EntryOp.program, deletePath, hname, hroot, Prog.first]
    · simp only [EntryOp.sentPath, EntryOp.program, deletePath, hname, hempty, hroot, hhome, if_false, or_self]
      rfl
  constructor
  · intro heq
    rw [hsent] at heq
    by_cases hroot : dartTrim entry.path = "/"
    · simp [hroot] at heq
    · rw [if_neg hroot, Option.some.injEq, remotePath_of_isAbsolute (isAbsolute_iff.mpr ⟨ds, hds'⟩)] at heq
      -- Trimming twice gives the path back, so trimming once already did.
      have hone := toList_trimBy_prefix hcs isDartWhitespace_slash
      have htwo := toList_trimBy_prefix hds' isWhitespace_slash
      rw [show trimBy isWhitespace (dartTrim entry.path) = entry.path from heq] at htwo
      exact hkeep.mp (String.toList_inj.mp (hone.eq_of_length_le htwo.length_le))
  · intro hlast
    have hsame : dartTrim entry.path = entry.path := hkeep.mpr hlast
    have hws : lastIs isWhitespace entry.path = false := by
      rw [hlisted.lastIs_path]
      exact lastIs_mono isDartWhitespace_of_isWhitespace hlast
    rw [hsent, hsame, if_neg (hlisted.path_ne_root habs), (remotePath_eq_self_iff hpabs).mpr hws]

/-- An operation sends the path of an entry as it is exactly when the name does not end with a
character the operation trims. -/
theorem sentPath_iff (hlisted : ListedIn platform dir entry) (habs : isAbsolute dir = true) (op : EntryOp) :
    op.sentPath entry = some entry.path ↔ lastIs op.trims entry.name = false := by
  by_cases hop : ∃ fuel, op = .deleteRemotePath fuel
  · obtain ⟨fuel, rfl⟩ := hop
    exact sentPath_deleteRemotePath_iff hlisted habs fuel
  · have hop' : ∀ fuel, op ≠ .deleteRemotePath fuel := fun fuel he => hop ⟨fuel, he⟩
    have htrims : op.trims = isWhitespace := by
      cases op with
      | deleteRemotePath fuel => exact absurd rfl (hop' fuel)
      | _ => rfl
    rw [sentPath_eq op entry hop', Option.some.injEq,
      remotePath_eq_self_iff (hlisted.isAbsolute_path habs), hlisted.lastIs_path, htrims]

end Entry

/-- The path of an entry, and the paths of what the server listed below it so far. -/
inductive SubjectOf (root : String) (before : List (Prog.Event Request Response)) : String → Prop where
  | root : SubjectOf root before root
  | listed {parent : String} {found : List DirEntry} {entry : DirEntry} (hparent : SubjectOf root before parent)
      (hlisted : ⟨.readDir parent, .ok found⟩ ∈ before) (hentry : entry ∈ found) :
      SubjectOf root before (join parent entry.fileName)

/-- A request is about an entry, or about what is below it. -/
def About (op : EntryOp) (root : String) (before : List (Prog.Event Request Response)) (q : Request) : Prop :=
  ∀ path, op.subject q = some path → SubjectOf root before path

section Server

variable {σ : Type} (h : (q : Request) → σ → Response q × σ)

/-- What an operation does, so far, when the server is in the state `s` at its start. -/
def Requests (s : σ) (entry : RemoteFileEntry) (op : EntryOp) (es : List (Prog.Event Request Response)) : Prop :=
  ∃ p s', Prog.Trace (fun q s r s' => h q s = (r, s')) (op.program entry) s es p s'

/-- Every operation on a listed entry acts on that entry: its path is sent as it is, every request is about it or
what is below it, and operations on two entries of the listing are about different paths. -/
structure ActsOnEntry (s : σ) (entries : List RemoteFileEntry) : Prop where
  sent : ∀ entry ∈ entries, ∀ op : EntryOp, op.sentPath entry = some entry.path
  about : ∀ entry ∈ entries, ∀ op es, Requests h s entry op es → Prog.Justified (About op entry.path) es
  apart : ∀ entry₁ ∈ entries, ∀ entry₂ ∈ entries, entry₁.name ≠ entry₂.name → ∀ op₁ op₂ es₁ es₂,
    Requests h s entry₁ op₁ es₁ → Requests h s entry₂ op₂ es₂ → ∀ event₁ ∈ es₁, ∀ event₂ ∈ es₂, ∀ path,
      op₁.subject event₁.1 = some path → op₂.subject event₂.1 ≠ some path

/-- REALPATH leads to another entry: there is a symbolic link on the path. -/
def LeadsElsewhere (s : σ) (entry : RemoteFileEntry) : Prop :=
  ∃ path, (h (.canonicalize entry.path) s).1 = .ok path ∧ path ≠ "/" ∧ path ≠ entry.path

def Under (root path : String) : Prop := path = root ∨ (root ++ "/").toList <+: path.toList

/-- No name that the server lists for a folder or below ends with white space. -/
def TidyBelow (root : String) : Prop :=
  ∀ path, Under root path → ∀ s found, (h (.readDir path) s).1 = .ok found →
    ∀ entry ∈ found, lastIs isWhitespace entry.fileName = false

end Server

section Subjects

variable {root : String} {before es : List (Prog.Event Request Response)} {op : EntryOp} {q : Request} {α : Type}

theorem SubjectOf.mono (hpath : SubjectOf root before path) (hsub : before ⊆ es) : SubjectOf root es path := by
  induction hpath with
  | root => exact .root
  | listed _ hlisted hentry ih => exact .listed ih (hsub hlisted) hentry

theorem under_join (hroot : endsWith root '/' = false) (hpath : Under root path) : Under root (join path name) := by
  rcases hpath with rfl | hbelow
  · refine .inr ?_
    rw [join, hroot, if_neg Bool.false_ne_true, String.toList_append (s := path ++ "/")]
    exact List.prefix_append _ _
  · refine .inr (hbelow.trans ?_)
    obtain ⟨base, hbase, -⟩ := join_eq_append path
    unfold join
    split
    · rw [String.toList_append]
      exact List.prefix_append _ _
    · rw [String.toList_append, String.toList_append, List.append_assoc]
      exact List.prefix_append _ _

theorem SubjectOf.under (hpath : SubjectOf root before path) (hroot : endsWith root '/' = false) : Under root path := by
  induction hpath with
  | root => exact .inl rfl
  | listed _ _ _ ih => exact under_join hroot ih

theorem subject_of_none (hq : q.subject = none) : op.subject q = none := by
  cases op <;> simp [EntryOp.subject, hq]

theorem About.of_none (hq : q.subject = none) : About op root before q := by
  intro path hpath
  cases (subject_of_none hq).symm.trans hpath

theorem About.of_some (hq : op.subject q = some path) (hpath : SubjectOf root before path) :
    About op root before q := by
  intro path' hpath'
  rwa [← Option.some.inj (hq.symm.trans hpath')]

end Subjects

section Programs

variable {root : String} {before : List (Prog.Event Request Response)} {op : EntryOp} {α : Type}
  {ok : List (Prog.Event Request Response) → Request → Prop}

theorem lift_guarded (r : Except Domain.PortixError α) :
    (Prog.lift r : SftpM α).Guarded ok (fun _ _ => True) before := by
  cases r <;> trivial

theorem eq_ok_of_mapError {r : Except String α} {wrap : String → Domain.PortixError} {a : α}
    (h : r.mapError wrap = .ok a) : r = .ok a := by
  cases r with
  | ok b => exact congrArg Except.ok (Except.ok.inj h)
  | error e => cases h

/-- The copy loops go by handles. -/
theorem copyBytes_guarded (hok : ∀ es q, q.subject = none → ok es q) (fuel : Nat) :
    ∀ {src dst : File} {before : List (Prog.Event Request Response)},
      (copyBytes fuel src dst).Guarded ok (fun _ _ => True) before := by
  induction fuel with
  | zero => exact trivial
  | succ fuel ih =>
    intro src dst before
    refine .call (hok _ _ rfl) fun r => .lift fun chunk _ => ?_
    dsimp only
    split
    · trivial
    · exact .call (hok _ _ rfl) fun r => .lift fun dst _ => ih

theorem copyWithProgress_guarded (hok : ∀ es q, q.subject = none → ok es q) (fuel : Nat) :
    ∀ {src dst : File} {done total : Nat} {before : List (Prog.Event Request Response)},
      (copyWithProgress fuel src dst done total).Guarded ok (fun _ _ => True) before := by
  induction fuel with
  | zero => exact trivial
  | succ fuel ih =>
    intro src dst done total before
    refine .call (hok _ _ rfl) fun go => ?_
    cases go with
    | false => exact .call (hok _ _ rfl) fun r => .lift fun _ _ => trivial
    | true =>
      refine .call (hok _ _ rfl) fun r => .lift fun chunk _ => ?_
      dsimp only
      split
      · trivial
      · exact .call (hok _ _ rfl) fun r => .lift fun dst _ => ih

theorem write_guarded {path : String} {data : List UInt8} (hpath : remotePath path = path) :
    (write path data).Guarded (About (.write data) path) (fun _ _ => True) before := by
  unfold write
  rw [hpath]
  refine .call (.of_some rfl .root) fun r => .lift fun file _ => ?_
  refine .call (.of_none rfl) fun r => .lift fun file _ => ?_
  exact .call (.of_none rfl) fun r => lift_guarded _

theorem download_guarded {path disk : String} {fuel : Nat} (hpath : remotePath path = path) :
    (download fuel path disk).Guarded (About (.download fuel disk) path) (fun _ _ => True) before := by
  have hnone : ∀ es q, q.subject = none → About (.download fuel disk) path es q := fun _ _ => .of_none
  have hpart : (downloadPart fuel path disk).Guarded (About (.download fuel disk) path) (fun _ _ => True) before := by
    unfold downloadPart
    rw [hpath]
    refine .call (.of_some rfl .root) fun r => .lift fun attrs _ => .call (.of_none rfl) fun existing => ?_
    refine .call (.of_some rfl .root) fun r => .lift fun src _ => .call (.of_none rfl) fun r => .lift fun src _ => ?_
    exact .call (.of_none rfl) fun r => .lift fun dst _ => copyWithProgress_guarded hnone fuel
  refine hpart.bind fun dst es _ => .call (.of_none rfl) fun r => .lift fun _ _ => ?_
  exact .call (.of_none rfl) fun r => lift_guarded _

/-- A removal goes through what is listed below its path. -/
theorem removeResolved_guarded (hop : ∀ q, op.subject q = q.subject) (fuel : Nat) :
    ∀ {path : String} {before : List (Prog.Event Request Response)}, SubjectOf root before path →
      (removeResolved fuel path).Guarded (About op root) (fun _ _ => True) before := by
  induction fuel with
  | zero => exact fun _ => trivial
  | succ fuel ih =>
    intro path before hpath
    rw [removeResolved]
    refine .call (.of_some (hop _) hpath) fun r => .lift fun attrs _ => ?_
    have hpath1 := hpath.mono (List.subset_append_left before [⟨.symlinkMetadata path, r⟩])
    split
    · exact .call (.of_some (hop _) hpath1) fun r => lift_guarded _
    · refine .call (.of_some (hop _) hpath1) fun r => .lift fun found hfound => ?_
      obtain rfl := eq_ok_of_mapError hfound
      refine Prog.Guarded.bind (D := fun _ es =>
          SubjectOf root es path ∧ ⟨.readDir path, .ok found⟩ ∈ es) (Prog.Guarded.forM ?_ ?_) fun _ es hes =>
        .call (.of_some (hop _) hes.1) fun r => lift_guarded _
      · intro entry hentry es hes
        unfold removeChild
        dsimp only
        split
        · refine (ih (.listed hes.1 hes.2 hentry)).keep (fun es es' hsub hes => ?_) hes
          exact ⟨hes.1.mono hsub.subset, hsub.subset hes.2⟩
        · exact hes
      · exact ⟨hpath1.mono (List.subset_append_left _ _), List.mem_append_right _ (List.mem_singleton_self _)⟩

/-- What was listed below a path has no name that ends with white space. -/
def TidyEvents (root : String) (es : List (Prog.Event Request Response)) : Prop :=
  ∀ path found, ⟨.readDir path, .ok found⟩ ∈ es → Under root path →
    ∀ entry ∈ found, lastIs isWhitespace entry.fileName = false

theorem tidyEvents_mono {es es' : List (Prog.Event Request Response)} (hsub : es <+: es')
    (h : TidyEvents root es') : TidyEvents root es :=
  fun path found hlisted => h path found (hsub.subset hlisted)

theorem remotePath_join {path name : String} (habs : isAbsolute path = true) (hpath : remotePath path = path)
    (hname : lastIs isWhitespace name = false) : remotePath (join path name) = join path name := by
  refine (remotePath_eq_self_iff (isAbsolute_join habs)).mpr ?_
  by_cases hempty : name = ""
  · subst hempty
    unfold join
    split
    · rw [String.append_empty]
      exact (remotePath_eq_self_iff habs).mp hpath
    · rw [String.append_empty, lastIs_append (by decide)]
      decide
  · rw [lastIs_join hempty]
    exact hname

/-- A copy goes through what is listed below its path, as long as no name there is trimmed. -/
theorem copy_guarded {k : Nat} {dest : String} (hroot : endsWith root '/' = false) (fuel : Nat) :
    ∀ {source target : String} {before : List (Prog.Event Request Response)}, isAbsolute source = true →
      remotePath source = source → SubjectOf root before source →
      (copy fuel source target).Guarded (fun es q => TidyEvents root es → About (.copy k dest) root es q)
        (fun _ _ => True) before := by
  have hwrites : ∀ es q, (EntryOp.copy k dest).subject q = none →
      TidyEvents root es → About (.copy k dest) root es q := by
    intro es q hq _ path hpath
    cases hq.symm.trans hpath
  have hnone : ∀ es q, q.subject = none → TidyEvents root es → About (.copy k dest) root es q :=
    fun es q hq => hwrites es q (subject_of_none hq)
  have hmode : ∀ (path : String) (mode : Option Nat) es,
      (keepMode path mode).Guarded (fun es q => TidyEvents root es → About (.copy k dest) root es q)
        (fun _ _ => True) es := by
    intro path mode es
    cases mode with
    | none => exact trivial
    | some mode => exact .call (hwrites _ _ rfl) fun r => lift_guarded _
  induction fuel with
  | zero => exact fun _ _ _ => trivial
  | succ fuel ih =>
    intro source target before habs hsource hsubject
    rw [copy, hsource]
    have hsome : ∀ es q, (EntryOp.copy k dest).subject q = some source → SubjectOf root es source →
        TidyEvents root es → About (.copy k dest) root es q := fun es q hq hes _ => .of_some hq hes
    refine .call (hsome _ _ rfl hsubject) fun r => .lift fun attrs _ => ?_
    have hsubject1 := hsubject.mono (List.subset_append_left before [⟨.metadata .remote source, r⟩])
    split
    · refine .call (hwrites _ _ rfl) fun r' => .lift fun _ _ => ?_
      have hsubject2 := hsubject1.mono (List.subset_append_left _ [⟨.createDir (remotePath target), r'⟩])
      refine .call (hsome _ _ rfl hsubject2) fun r'' => .lift fun found hfound => ?_
      obtain rfl := eq_ok_of_mapError hfound
      have hlisted : ⟨.readDir source, .ok found⟩ ∈ before ++ [⟨.metadata .remote source, r⟩] ++
          [⟨.createDir (remotePath target), r'⟩] ++ [⟨.readDir source, .ok found⟩] :=
        List.mem_append_right _ (List.mem_singleton_self _)
      have hsubject3 := hsubject2.mono (List.subset_append_left _ [⟨.readDir source, .ok found⟩])
      generalize before ++ [⟨.metadata .remote source, r⟩] ++ [⟨.createDir (remotePath target), r'⟩] ++
        [⟨.readDir source, .ok found⟩] = now at hlisted hsubject3 ⊢
      by_cases htidy : TidyEvents root now
      · have hnames := htidy source found hlisted (hsubject.under hroot)
        refine Prog.Guarded.bind (D := fun _ es => SubjectOf root es source ∧ ⟨.readDir source, .ok found⟩ ∈ es)
          (Prog.Guarded.forM ?_ ⟨hsubject3, hlisted⟩) fun _ es _ => hmode _ _ es
        intro entry hentry es hes
        dsimp only
        split
        · refine (ih (isAbsolute_join habs) (remotePath_join habs hsource (hnames entry hentry))
            (.listed hes.1 hes.2 hentry)).keep (fun es es' hsub hes => ?_) hes
          exact ⟨hes.1.mono hsub.subset, hsub.subset hes.2⟩
        · exact hes
      · exact .of_not (fun _ _ hsub => tidyEvents_mono hsub) htidy
    · refine .call (hsome _ _ rfl hsubject1) fun r' => .lift fun src _ => ?_
      refine .call (hwrites _ _ rfl) fun r'' => .lift fun dst _ => ?_
      refine (copyBytes_guarded hnone fuel).bind fun dst es _ => ?_
      exact .call (hnone _ _ rfl) fun r => .lift fun _ _ => hmode _ _ _

end Programs

theorem slash_notMem_of_isSafeEntryName {windows : Bool} (hsafe : isSafeEntryName name windows = true) :
    '/' ∉ name.toList := by
  intro hmem
  simp [isSafeEntryName, containsChar, hmem] at hsafe

theorem under_name (hname : '/' ∉ name.toList) (hunder : Under (base ++ name) path) :
    (path.toList.drop base.toList.length).takeWhile (· != '/') = name.toList := by
  have hall : ∀ c ∈ name.toList, (c != '/') = true := fun c hc => by
    rw [bne_iff_ne]
    exact fun heq => hname (heq ▸ hc)
  rcases hunder with rfl | ⟨rest, hrest⟩
  · rw [String.toList_append, List.drop_left, List.takeWhile_eq_self_iff.mpr hall]
  · rw [← hrest, String.toList_append, String.toList_append, List.append_assoc, List.append_assoc, List.drop_left,
      List.takeWhile_append_of_pos hall]
    exact List.append_nil _

section Entry

variable {platform : Platform} {dir : String} {entry entry₁ entry₂ : RemoteFileEntry}

theorem ListedIn.endsWith_path (hlisted : ListedIn platform dir entry) : endsWith entry.path '/' = false := by
  obtain ⟨base, hbase, -⟩ := join_eq_append dir
  have hne := isSafeEntryName_ne_empty hlisted.2
  have hlist : entry.name.toList ≠ [] := fun he => hne (String.toList_inj.mp (by rw [he]; rfl))
  rw [hlisted.1, hbase, endsWith, String.toList_append, List.getLast?_append_of_ne_nil _ hlist]
  rw [beq_eq_false_iff_ne]
  intro hlast
  exact slash_notMem_of_isSafeEntryName hlisted.2 (List.mem_of_getLast? hlast)

theorem ListedIn.under_eq (hlisted₁ : ListedIn platform dir entry₁) (hlisted₂ : ListedIn platform dir entry₂)
    (hunder₁ : Under entry₁.path path) (hunder₂ : Under entry₂.path path) : entry₁.name = entry₂.name := by
  obtain ⟨base, hbase, -⟩ := join_eq_append dir
  rw [hlisted₁.1, hbase] at hunder₁
  rw [hlisted₂.1, hbase] at hunder₂
  have hname₁ := under_name (slash_notMem_of_isSafeEntryName hlisted₁.2) hunder₁
  have hname₂ := under_name (slash_notMem_of_isSafeEntryName hlisted₂.2) hunder₂
  exact String.toList_inj.mp (hname₁.symm.trans hname₂)

theorem ListedIn.deletePath_eq (hlisted : ListedIn platform dir entry) (habs : isAbsolute dir = true)
    (hname : lastIs isDartWhitespace entry.name = false) : deletePath entry.name entry.path = some entry.path := by
  obtain ⟨cs, hcs⟩ := isAbsolute_iff.mp (hlisted.isAbsolute_path habs)
  have hkeep := trimBy_eq_self_iff hcs isDartWhitespace_slash
  rw [hlisted.lastIs_path] at hkeep
  have hsame : dartTrim entry.path = entry.path := hkeep.mpr hname
  have hempty : entry.path ≠ "" := fun he => by simp [he] at hcs
  have hhome : entry.path ≠ "~" := fun he => by simp [he] at hcs
  rw [deletePath, if_neg (isSafeEntryName_ne_dotdot hlisted.2), hsame]
  exact if_neg (by simp [hempty, hhome, hlisted.path_ne_root habs])

variable {σ : Type} {h : (q : Request) → σ → Response q × σ} {s s' : σ} {fuel : Nat} {op : EntryOp}
  {es : List (Prog.Event Request Response)} {p : SftpM Unit}

/-- A removal whose path REALPATH leaves alone is about its path and what is below. -/
theorem remove_about {p' : SftpM Unit} (hop : ∀ q, op.subject q = q.subject) (hpath : remotePath path = path)
    (hreal : ∀ path', (h (.canonicalize path) s).1 = .ok path' → path' = "/" ∨ path' = path)
    (htrace : Prog.Trace (fun q s r s' => h q s = (r, s')) (remove fuel path) s es p' s') :
    Prog.Justified (About op path) es := by
  unfold remove resolve at htrace
  rw [hpath] at htrace
  refine Prog.Justified.of_first (D := fun _ _ => True) (.of_some (hop _) .root) (fun r s₁ hanswer => ?_) htrace
  cases r with
  | error e => trivial
  | ok path' =>
    show (if path' = "/" then Prog.fail (.invalidRequest "refusing to delete /") else
      removeResolved fuel path').Guarded (About op path) (fun _ _ => True) _
    split
    · trivial
    · rename_i hroot
      obtain rfl := (hreal path' (congrArg Prod.fst hanswer)).resolve_left hroot
      exact removeResolved_guarded hop fuel .root

theorem tidyEvents_of_trace {p p' : SftpM Unit} {root : String} (htidy : TidyBelow h root)
    (htrace : Prog.Trace (fun q s r s' => h q s = (r, s')) p s es p' s') : TidyEvents root es := by
  intro path found hlisted hunder
  obtain ⟨s₁, s₂, hanswer⟩ := htrace.answered _ hlisted
  exact htidy path hunder s₁ found (congrArg Prod.fst hanswer)

theorem ListedIn.about (hlisted : ListedIn platform dir entry) (habs : isAbsolute dir = true)
    (hname : lastIs isDartWhitespace entry.name = false) (hreal : ¬LeadsElsewhere h s entry)
    (htidy : TidyBelow h entry.path) (op : EntryOp) (hrequests : Requests h s entry op es) :
    Prog.Justified (About op entry.path) es := by
  obtain ⟨p', s', htrace⟩ := hrequests
  have hpath : remotePath entry.path = entry.path := by
    refine (remotePath_eq_self_iff (hlisted.isAbsolute_path habs)).mpr ?_
    rw [hlisted.lastIs_path]
    exact lastIs_mono isDartWhitespace_of_isWhitespace hname
  have hreal' : ∀ path, (h (.canonicalize entry.path) s).1 = .ok path → path = "/" ∨ path = entry.path := by
    intro path hanswer
    by_contra hother
    rw [not_or] at hother
    exact hreal ⟨path, hanswer, hother⟩
  cases op with
  | read =>
    have hguarded : (Sftp.read entry.path >>= fun _ => pure () : SftpM Unit).Guarded (About .read entry.path)
        (fun _ _ => True) [] := by
      unfold Sftp.read
      rw [hpath]
      exact Prog.Guarded.bind (D := fun _ _ => True) (.call (.of_some rfl .root) fun r => lift_guarded _)
        fun _ _ _ => trivial
    exact hguarded.justified htrace
  | write data => exact (write_guarded hpath).justified htrace
  | chmod mode =>
    have hguarded : (Sftp.chmod entry.path mode).Guarded (About (.chmod mode) entry.path) (fun _ _ => True) [] := by
      unfold Sftp.chmod
      rw [hpath]
      exact .call (.of_some rfl .root) fun r => lift_guarded _
    exact hguarded.justified htrace
  | rename target =>
    have hguarded : (Sftp.rename entry.path target).Guarded (About (.rename target) entry.path)
        (fun _ _ => True) [] := by
      unfold Sftp.rename
      rw [hpath]
      exact .call (.of_some rfl .root) fun r => lift_guarded _
    exact hguarded.justified htrace
  | remove fuel => exact remove_about (fun _ => rfl) hpath hreal' htrace
  | deleteRemotePath fuel =>
    unfold EntryOp.program at htrace
    rw [hlisted.deletePath_eq habs hname] at htrace
    exact remove_about (fun _ => rfl) hpath hreal' htrace
  | copy fuel target =>
    have hguarded : (Sftp.copy (fuel + 1) entry.path target).Guarded
        (fun es q => TidyEvents entry.path es → About (.copy fuel target) entry.path es q) (fun _ _ => True) [] :=
      copy_guarded hlisted.endsWith_path (fuel + 1) (hlisted.isAbsolute_path habs) hpath .root
    intro es₁ event es₂ hes
    refine hguarded.justified htrace es₁ event es₂ hes (tidyEvents_mono ?_ (tidyEvents_of_trace htidy htrace))
    exact ⟨_, hes.symm⟩
  | download fuel disk => exact (download_guarded hpath).justified htrace

end Entry

theorem SubjectOf.eq_of_unlisted {root : String} {before : List (Prog.Event Request Response)}
    (h : SubjectOf root before path) (hnone : ∀ parent found, ⟨.readDir parent, .ok found⟩ ∉ before) : path = root := by
  cases h with
  | root => rfl
  | listed _ hlisted _ => exact absurd hlisted (hnone _ _)

/-- A server with a folder `/d` of files, where REALPATH follows a link. -/
def folderServer (names : List String) (link target : String) (q : Request) (s : Unit) : Response q × Unit :=
  match q with
  | .canonicalize path => (.ok (if path = "." then "/d" else if path = link then target else path), s)
  | .readDir path =>
    (if path = "/d" then .ok (names.map fun name => ⟨name, ⟨false, false, some 1, some 0o644, some 0⟩⟩)
      else .error "no such file", s)
  | .metadata .. | .symlinkMetadata .. | .readFile .. | .openFile .. | .seek .. | .readChunk ..
  | .writeAll .. | .flush .. | .shutdown .. | .createDir .. | .removeFile .. | .removeDir ..
  | .setMetadata .. | .rename .. => (.error "no such file", s)
  | .progress _ => (true, s)

def folderEntries (names : List String) : List RemoteFileEntry :=
  names.map fun name => ⟨name, join "/d" name, false, 1, 0, 0o644⟩

end Portix.Sftp
