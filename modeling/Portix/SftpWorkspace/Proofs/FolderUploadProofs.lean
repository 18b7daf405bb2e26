import Portix.Lib.Proofs.FileTreeProofs
import Portix.SftpWorkspace.Proofs.FileOperationsProofs

/-!
# Proofs: uploads of folders

The remote path of a file is built folder by folder: `_joinRemote` trims what it has so far, and `_basename`
reads backslashes as slashes. Neither adds a backslash or a white space before a slash to a path, and this
number tells whether a name was changed on the way.
-/

namespace Portix.SftpWorkspace

open Lib

def flaws : List Char → Nat
  | [] => 0
  | c :: cs => (if c = '\\' ∨ isDartWhitespace c = true ∧ cs.head? = some '/' then 1 else 0) + flaws cs

theorem flaws_nil : flaws [] = 0 := rfl

theorem flaws_cons (c : Char) (cs : List Char) : flaws (c :: cs) =
    (if c = '\\' ∨ isDartWhitespace c = true ∧ cs.head? = some '/' then 1 else 0) + flaws cs := rfl

theorem flaws_append_slash (a b : List Char) : flaws (a ++ '/' :: b) = flaws (a ++ ['/']) + flaws b := by
  induction a with
  | nil =>
    change (if '/' = '\\' ∨ isDartWhitespace '/' = true ∧ b.head? = some '/' then 1 else 0) + flaws b = 0 + flaws b
    simp [Sftp.isDartWhitespace_slash]
  | cons c a ih =>
    have hhead : (a ++ '/' :: b).head? = (a ++ ['/']).head? := by
      cases a <;> rfl
    rw [List.cons_append, List.cons_append, flaws_cons, flaws_cons, ih, hhead]
    omega

variable {a l u : List Char}

theorem flaws_le_of_start (h : a <+: l) : flaws a ≤ flaws l := by
  induction a generalizing l with
  | nil => exact Nat.zero_le _
  | cons c a ih =>
    obtain ⟨t, rfl⟩ := h
    have hrest := ih ⟨t, rfl⟩
    rw [List.cons_append, flaws_cons, flaws_cons]
    have hhead : a.head? = some '/' → (a ++ t).head? = some '/' := by
      cases a with
      | nil => exact fun h => nomatch h
      | cons d a => exact id
    refine Nat.add_le_add ?_ hrest
    split
    case isTrue hc => rw [if_pos (hc.imp_right fun h => ⟨h.1, hhead h.2⟩)]
    case isFalse => exact Nat.zero_le _

theorem flaws_le_of_end (h : a <:+ l) : flaws a ≤ flaws l := by
  obtain ⟨t, rfl⟩ := h
  induction t with
  | nil => exact le_rfl
  | cons c t ih =>
    rw [List.cons_append, flaws_cons]
    omega

theorem flaws_concat_slash (a : List Char) :
    flaws (a ++ ['/']) = flaws a + if a.getLast?.any isDartWhitespace then 1 else 0 := by
  induction a with
  | nil => rfl
  | cons c a ih =>
    cases a with
    | nil =>
      by_cases hc : c = '\\'
      · subst hc
        rfl
      · by_cases hwhite : isDartWhitespace c = true
        · simp [flaws_cons, flaws_nil, hc, hwhite]
        · simp [flaws_cons, flaws_nil, hc, hwhite]
    | cons d a =>
      have hleft : flaws (c :: d :: a ++ ['/']) =
          (if c = '\\' ∨ isDartWhitespace c = true ∧ some d = some '/' then 1 else 0) + flaws (d :: a ++ ['/']) := rfl
      have hright : flaws (c :: d :: a) = (if c = '\\' ∨ isDartWhitespace c = true ∧ some d = some '/' then 1 else 0) +
            flaws (d :: a) := rfl
      rw [hleft, hright, ih, List.getLast?_cons_cons, Nat.add_assoc]

variable {cs : List Char}

theorem flaws_eq_zero_iff (h : '/' ∉ cs) : flaws cs = 0 ↔ '\\' ∉ cs := by
  induction cs with
  | nil => simp [flaws_nil]
  | cons c cs ih =>
    have hcs : '/' ∉ cs := fun hm => h (List.mem_cons_of_mem _ hm)
    have hhead : cs.head? ≠ some '/' := fun he => hcs (List.mem_of_head? he)
    rw [flaws_cons, Nat.add_eq_zero_iff, ih hcs, List.mem_cons, not_or]
    refine and_congr_left fun _ => ?_
    by_cases hc : c = '\\'
    · simp [hc]
    · simp [hc, hhead, Ne.symm hc]

theorem flaws_of_all_slashes (h : ∀ c ∈ cs, c = '/') : flaws cs = 0 := by
  induction cs with
  | nil => rfl
  | cons c cs ih =>
    rw [flaws_cons, ih fun d hd => h d (List.mem_cons_of_mem _ hd), h c List.mem_cons_self]
    simp [Sftp.isDartWhitespace_slash]

theorem strip_cases (u : List Char) : u.rdropWhile (· == '/') = u ∨ u.rdropWhile (· == '/') ++ ['/'] <+: u := by
  induction u using List.reverseRecOn with
  | nil => exact Or.inl rfl
  | append_singleton v c ih =>
    by_cases hc : c = '/'
    · subst hc
      rw [List.rdropWhile_concat_pos _ _ _ (by simp)]
      rcases ih with ih | ih
      · rw [ih]
        exact Or.inr List.prefix_rfl
      · exact Or.inr (ih.trans (List.prefix_append _ _))
    · exact Or.inl (List.rdropWhile_concat_neg _ _ _ (by simpa using hc))

theorem flaws_strip_le (hu : u.getLast?.any isDartWhitespace = false) :
    flaws (u.rdropWhile (· == '/') ++ ['/']) ≤ flaws u := by
  rcases strip_cases u with h | h
  · rw [h, flaws_concat_slash, hu]
    exact le_rfl
  · exact flaws_le_of_start h

theorem strip_of_whitespace (hu : u.getLast?.any isDartWhitespace = true) : u.rdropWhile (· == '/') = u := by
  refine List.rdropWhile_eq_self_iff.mpr fun hne hslash => ?_
  rw [List.getLast?_eq_some_getLast hne, beq_iff_eq.mp hslash] at hu
  exact absurd hu (by decide)

theorem flaws_le_strip (u : List Char) : flaws u ≤ flaws (u.rdropWhile (· == '/') ++ ['/']) := by
  induction u using List.reverseRecOn with
  | nil => exact Nat.zero_le _
  | append_singleton v c ih =>
    by_cases hc : c = '/'
    · subst hc
      rw [List.rdropWhile_concat_pos _ _ _ (by simp)]
      by_cases hlast : v.getLast?.any isDartWhitespace = true
      · rw [strip_of_whitespace hlast]
      · rw [flaws_concat_slash v, if_neg hlast]
        exact ih
    · rw [List.rdropWhile_concat_neg _ _ _ (by simpa using hc)]
      exact flaws_le_of_start (List.prefix_append _ _)

theorem flaws_trimBy_le (p : Char → Bool) (s : String) : flaws (trimBy p s).toList ≤ flaws s.toList := by
  unfold trimBy
  rw [String.toList_ofList]
  exact (flaws_le_of_start ( List.rdropWhile_prefix _ _)).trans (flaws_le_of_end (List.dropWhile_suffix _))

def joinBase (directory : String) : String :=
  stripSlashes (if dartTrim directory = "" then "~" else dartTrim directory)

theorem joinRemote_eq (directory name : String) : joinRemote directory name = joinBase directory ++ "/" ++ name := by
  unfold joinRemote joinBase
  generalize (if dartTrim directory = "" then "~" else dartTrim directory) = base
  by_cases hbase : base = "/"
  · have hroot : stripSlashes "/" = "" := by decide
    subst hbase
    rw [hroot]
    rfl
  · exact if_neg hbase

theorem toList_joinRemote (directory name : String) :
    (joinRemote directory name).toList = (joinBase directory).toList ++ '/' :: name.toList := by
  rw [joinRemote_eq]
  simp

theorem flaws_joinBase_le (directory : String) :
    flaws ((joinBase directory).toList ++ ['/']) ≤ flaws directory.toList := by
  unfold joinBase
  rw [toList_stripSlashes]
  split
  case isTrue =>
    have hhome : flaws ("~".toList.rdropWhile (· == '/') ++ ['/']) = 0 := by decide
    rw [hhome]
    exact Nat.zero_le _
  case isFalse =>
    exact (flaws_strip_le (lastIs_trimBy isDartWhitespace directory)).trans
      (flaws_trimBy_le isDartWhitespace directory)

theorem flaws_basename (path : String) : flaws (basename path).toList = 0 := by
  unfold basename
  simp only
  cases hlast : ((splitChar '/' (replaceChar '\\' "/" path)).filter fun part => part ≠ "").getLast? with
  | some part =>
    have hpart := (List.mem_filter.mp (List.mem_of_getLast? hlast)).1
    obtain ⟨piece, hpiece, rfl⟩ := List.mem_map.mp hpart
    rw [Option.getD_some, String.toList_ofList, flaws_eq_zero_iff (notMem_of_mem_splitOn hpiece)]
    intro hback
    have hmem := subset_of_mem_splitOn hpiece hback
    rw [toList_slashed] at hmem
    exact backslash_notMem_map_slashed _ hmem
  | none =>
    rw [Option.getD_none]
    refine flaws_of_all_slashes (eq_of_splitOn_empty fun piece hpiece => ?_)
    by_contra hne
    rw [List.getLast?_eq_none_iff, List.filter_eq_nil_iff] at hlast
    exact hlast _ (List.mem_map.mpr ⟨piece, hpiece, rfl⟩) (by simpa using hne)

theorem flaws_joinRemote_le (directory path : String) :
    flaws (joinRemote directory (basename path)).toList ≤ flaws directory.toList := by
  rw [toList_joinRemote, flaws_append_slash, flaws_basename, Nat.add_zero]
  exact flaws_joinBase_le directory

/-- A program that makes its calls one after the other and ends with the first failure. -/
inductive Sequential : OperationM Unit → Prop
  | done : Sequential (.done (.ok ()))
  | ask {call : RemoteCall} {k : Except String Unit → OperationM Unit}
      (hfail : ∀ e, k (.error e) = .done (.error e)) (hok : Sequential (k (.ok ()))) : Sequential (.ask call k)

theorem Sequential.call (call : RemoteCall) : Sequential (Prog.call call >>= orThrow) :=
  .ask (fun _ => rfl) .done

theorem Sequential.bind {p : OperationM Unit} {f : Unit → OperationM Unit} (hp : Sequential p)
    (hf : Sequential (f ())) : Sequential (p >>= f) := by
  induction hp with
  | done => exact hf
  | ask hfail _ ih => exact .ask (fun e => by rw [hfail]; rfl) ih

theorem asked_bind {p : OperationM Unit} (hp : Sequential p) (f : Unit → OperationM Unit) :
    asked (p >>= f) = asked p ++ asked (f ()) := by
  induction hp with
  | done => rfl
  | ask _ _ ih => exact congrArg (List.cons _) ih

theorem sequential_uploadFile (path remoteDirectory : String) : Sequential (uploadFile path remoteDirectory) :=
  .call _

theorem sequential_uploadDirectoryWith {loop : String → String → OperationM Unit}
    (hloop : ∀ directory remoteRoot, Sequential (loop directory remoteRoot)) (directory remoteDirectory : String) :
    Sequential (uploadDirectoryWith loop directory remoteDirectory) :=
  (Sequential.call _).bind (hloop _ _)

theorem sequential_uploadEntries (entries : Listing) (directory remoteRoot : String) :
    Sequential (uploadEntries entries directory remoteRoot) := by
  induction entries generalizing directory remoteRoot with
  | nil => exact .done
  | file name rest ih => exact (sequential_uploadFile _ _).bind (ih _ _)
  | link name rest ih => exact ih _ _
  | dir name entries rest ihentries ih => exact (sequential_uploadDirectoryWith ihentries _ _).bind (ih _ _)

/-- The remote path of a file that names lead to from a folder whose content goes to `remoteRoot`. -/
def remoteOf : String → String → List Name → Name → String
  | directory, remoteRoot, [], file => joinRemote remoteRoot (basename (entityPath directory file))
  | directory, remoteRoot, name :: folders, file =>
    remoteOf (entityPath directory name) (joinRemote remoteRoot (basename (entityPath directory name))) folders file

theorem uploads_append (calls calls' : List RemoteCall) :
    uploads (calls ++ calls') = uploads calls ++ uploads calls' := List.filterMap_append

theorem uploads_uploadEntries (entries : Listing) (directory remoteRoot : String) :
    uploads (asked (uploadEntries entries directory remoteRoot)) = entries.files.map fun f =>
        (localBelow directory (f.1 ++ [f.2]), remoteOf directory remoteRoot f.1 f.2) := by
  induction entries generalizing directory remoteRoot with
  | nil => rfl
  | file name rest ih =>
    rw [uploadEntries, asked_bind (sequential_uploadFile _ _), uploads_append, ih]
    rfl
  | link name rest ih => exact ih _ _
  | dir name entries rest ihentries ih =>
    rw [uploadEntries, asked_bind (sequential_uploadDirectoryWith (sequential_uploadEntries entries) _ _),
      uploads_append, ih, Listing.files, List.map_append, List.map_map]
    congr 1
    exact ihentries _ _

theorem uploads_uploadDirectory (directory : String) (entries : Listing) (remoteDirectory : String) :
    uploads (asked (uploadDirectory directory entries remoteDirectory)) = entries.files.map fun f =>
        (localBelow directory (f.1 ++ [f.2]),
          remoteOf directory (joinRemote remoteDirectory (basename directory)) f.1 f.2) :=
  uploads_uploadEntries entries directory _

theorem flaws_remoteOf_le (directory remoteRoot : String) (folders : List Name) (file : Name) :
    flaws (remoteOf directory remoteRoot folders file).toList ≤ flaws remoteRoot.toList := by
  induction folders generalizing directory remoteRoot with
  | nil => exact flaws_joinRemote_le _ _
  | cons name folders ih => exact (ih _ _).trans (flaws_joinRemote_le _ _)

variable (base : String)

def underBase (names : List Name) : String :=
  names.foldl (fun path name => path ++ "/" ++ name.text) base

@[simp] theorem underBase_nil : underBase base [] = base := rfl

@[simp] theorem underBase_cons (name : Name) (names : List Name) :
    underBase base (name :: names) = underBase (base ++ "/" ++ name.text) names := rfl

theorem remoteBelow_eq (directory : String) (names : List Name) :
    remoteBelow directory names = underBase (stripSlashes directory) names := rfl

variable (folders : List Name)

theorem toList_underBase_concat (file : Name) :
    (underBase base (folders ++ [file])).toList = (underBase base folders).toList ++ '/' :: file.text.toList := by
  rw [underBase, List.foldl_concat]
  simp [underBase]

theorem flaws_underBase (file : Name) :
    flaws (underBase base (folders ++ [file])).toList =
      flaws (base.toList ++ ['/']) + (folders.map fun name => flaws (name.text.toList ++ ['/'])).sum +
        flaws file.text.toList := by
  induction folders generalizing base with
  | nil =>
    rw [toList_underBase_concat, flaws_append_slash]
    rfl
  | cons name folders ih =>
    have hstart : ((base ++ "/" ++ name.text).toList ++ ['/']) =
        base.toList ++ '/' :: (name.text.toList ++ ['/']) := by simp
    rw [List.cons_append, underBase_cons, ih, hstart, flaws_append_slash, List.map_cons, List.sum_cons]
    omega

/-- A folder's name on the way to a file survives: it has no backslash and does not end with white space. -/
def PlainFolder (name : Name) : Prop :=
  containsChar name.text '\\' = false ∧ lastIs isDartWhitespace name.text = false

instance (name : Name) : Decidable (PlainFolder name) := inferInstanceAs (Decidable (_ ∧ _))

/-- The names that lead to a file, and its own, survive. -/
def PlainWay (file : Name) : Prop :=
  (∀ name ∈ folders, PlainFolder name) ∧ containsChar file.text '\\' = false

instance (folders : List Name) (file : Name) : Decidable (PlainWay folders file) :=
  inferInstanceAs (Decidable (_ ∧ _))

/-- The text of a remote folder survives trimming. -/
def TrimmedFolder (directory : String) : Prop := dartTrim directory = directory ∧ directory ≠ ""

instance (directory : String) : Decidable (TrimmedFolder directory) := inferInstanceAs (Decidable (_ ∧ _))

theorem flaws_name_eq_zero_iff (name : Name) : flaws name.text.toList = 0 ↔ containsChar name.text '\\' = false := by
  rw [flaws_eq_zero_iff (name.slash_notMem)]
  simp [containsChar]

theorem flaws_folder_eq_zero_iff (name : Name) : flaws (name.text.toList ++ ['/']) = 0 ↔ PlainFolder name := by
  rw [flaws_concat_slash, Nat.add_eq_zero_iff, flaws_name_eq_zero_iff]
  refine and_congr_right fun _ => ?_
  change (if lastIs isDartWhitespace name.text = true then 1 else 0) = 0 ↔ _
  simp

variable {directory : String}

theorem plain_of_flaws_le {folders : List Name} {file : Name}
    (h : flaws (remoteBelow directory (folders ++ [file])).toList ≤ flaws directory.toList) :
    PlainWay folders file ∧ lastIs isDartWhitespace directory = false := by
  rw [remoteBelow_eq, flaws_underBase, toList_stripSlashes] at h
  have hstart := flaws_le_strip directory.toList
  have hfolders : (folders.map fun name => flaws (name.text.toList ++ ['/'])).sum = 0 := by omega
  have hfile : flaws file.text.toList = 0 := by omega
  refine ⟨⟨fun name hname => ?_, (flaws_name_eq_zero_iff file).mp hfile⟩, ?_⟩
  · exact (flaws_folder_eq_zero_iff name).mp
      (List.sum_eq_zero_iff_forall_eq_nat.mp hfolders _ (List.mem_map.mpr ⟨name, hname, rfl⟩))
  · by_contra hlast
    have hwhite : directory.toList.getLast?.any isDartWhitespace = true := by
      simpa [lastIs] using hlast
    rw [strip_of_whitespace hwhite, flaws_concat_slash, if_pos hwhite] at h
    omega

theorem head?_strip (c : Char) (cs text : List Char) :
    ((c :: cs).rdropWhile (· == '/') ++ '/' :: text).head? = some c := by
  cases hstrip : (c :: cs).rdropWhile (· == '/') with
  | nil =>
    have hc := List.rdropWhile_eq_nil_iff.mp hstrip c List.mem_cons_self
    rw [List.nil_append, List.head?_cons, beq_iff_eq.mp hc]
  | cons d ds =>
    have hinit := hstrip ▸ List.rdropWhile_prefix (· == '/') (c :: cs)
    rw [List.cons_append, List.head?_cons, (List.cons_prefix_cons.mp hinit).1]

/-- What `_joinRemote` makes starts with the first character of what it is given that is not white space. -/
theorem head?_joinRemote {c : Char} (hcs : directory.toList = c :: cs)
    (hc : isDartWhitespace c = false) (name : String) : (joinRemote directory name).toList.head? = some c := by
  obtain ⟨ds, hds⟩ := toList_trimBy_cons hcs hc
  have hds' : (dartTrim directory).toList = c :: ds := hds
  have hne : dartTrim directory ≠ "" := fun he => by simp [he] at hds'
  rw [toList_joinRemote, joinBase, if_neg hne, toList_stripSlashes, hds']
  exact head?_strip c ds _

theorem exists_head_joinRemote (directory name : String) :
    ∃ c cs, (joinRemote directory name).toList = c :: cs ∧ isDartWhitespace c = false := by
  obtain ⟨c, cs, hbase, hc⟩ : ∃ c cs, (if dartTrim directory = "" then "~" else dartTrim directory).toList = c :: cs ∧
        isDartWhitespace c = false := by
    split
    case isTrue => exact ⟨'~', [], by decide, by decide⟩
    case isFalse hne =>
      cases hl : (dartTrim directory).toList with
      | nil => exact absurd (String.toList_inj.mp (hl.trans String.toList_empty.symm)) hne
      | cons c cs =>
        have hfirst := firstIs_trimBy isDartWhitespace directory
        rw [firstIs, ← dartTrim, hl] at hfirst
        exact ⟨c, cs, rfl, hfirst⟩
  have hhead : (joinRemote directory name).toList.head? = some c := by
    rw [toList_joinRemote, joinBase, toList_stripSlashes, hbase]
    exact head?_strip c cs _
  obtain ⟨ds, hds⟩ := List.head?_eq_some_iff.mp hhead
  exact ⟨c, ds, hds, hc⟩

variable {name : Name}

theorem joinBase_joinRemote (hplain : PlainFolder name) :
    joinBase (joinRemote directory name.text) = joinRemote directory name.text := by
  have happend : joinRemote directory name.text = joinBase directory ++ "/" ++ name.text := joinRemote_eq _ _
  have htrim : dartTrim (joinRemote directory name.text) = joinRemote directory name.text := by
    obtain ⟨c, cs, hcs, hc⟩ := exists_head_joinRemote directory name.text
    refine (trimBy_eq_self_iff hcs hc).mpr ?_
    rw [happend, Sftp.lastIs_append (name.text_ne.1)]
    exact hplain.2
  have hne : joinRemote directory name.text ≠ "" := by
    intro he
    have hlist := congrArg String.toList he
    rw [toList_joinRemote] at hlist
    exact absurd hlist (List.append_ne_nil_of_right_ne_nil _ (List.cons_ne_nil _ _))
  have hlast : lastIs (· == '/') (joinRemote directory name.text) = false := by
    rw [happend, Sftp.lastIs_append (name.text_ne.1)]
    unfold lastIs
    cases hl : name.text.toList.getLast? with
    | none => rfl
    | some c =>
      have hc : c ≠ '/' := fun he => name.slash_notMem (he ▸ List.mem_of_getLast? hl)
      simpa using hc
  unfold joinBase
  rw [htrim, if_neg hne, ← String.toList_inj, toList_stripSlashes]
  refine List.rdropWhile_eq_self_iff.mpr fun hnil hslash => ?_
  rw [lastIs, List.getLast?_eq_some_getLast hnil] at hlast
  rw [Option.any_some] at hlast
  exact absurd hslash (by simpa using hlast)

/-- A path that ends with a name and perhaps slashes. -/
def EndsIn (path : String) (name : List Char) : Prop :=
  ∃ (start : List Char) (k : Nat), path.toList = start ++ (name ++ List.replicate k '/') ∧
    (start = [] ∨ ∃ rest, start = rest ++ ['/'])

variable {path : String}

theorem lastName_of_endsIn {name : List Char} (h : EndsIn path name) (hslash : '/' ∉ name)
    (hne : name ≠ []) : lastName path = some (String.ofList name) := by
  obtain ⟨start, k, hpath, hstart⟩ := h
  have hend : (((name ++ List.replicate k '/').splitOn '/').map String.ofList).filter (fun part => part ≠ "") =
      [String.ofList name] := by
    have hname : String.ofList name ≠ "" := by simpa using hne
    have hslashes : ((List.replicate k ([] : List Char)).map String.ofList).filter (fun part => part ≠ "") = [] := by
      simp
    cases k with
    | zero => simp [List.splitOn_eq_singleton hslash, hne]
    | succ k =>
      rw [List.replicate_succ, List.splitOn_append_cons_self_of_not_mem hslash, splitOn_replicate, List.map_cons,
        List.filter_cons_of_pos (by simpa using hname), hslashes]
  unfold lastName splitChar
  rw [hpath]
  rcases hstart with rfl | ⟨rest, rfl⟩
  · rw [List.nil_append, hend]
    rfl
  · rw [List.append_assoc, List.singleton_append, List.splitOn_append_cons_self, List.map_append,
      List.filter_append, hend, List.getLast?_concat]

theorem exists_endsIn (h : path.toList.rdropWhile (· == '/') ≠ []) :
    ∃ name, EndsIn path name ∧ '/' ∉ name ∧ name ≠ [] := by
  have hsplit := List.rdropWhile_append_rtakeWhile (p := (· == '/')) (l := path.toList)
  obtain ⟨k, hslashes⟩ : ∃ k, path.toList.rtakeWhile (· == '/') = List.replicate k '/' := by
    refine ⟨_, List.eq_replicate_of_mem fun c hc => ?_⟩
    have hpc : (c == '/') = true := List.mem_rtakeWhile_imp (p := (· == '/')) hc
    exact beq_iff_eq.mp hpc
  have hagain := List.rdropWhile_idempotent (· == '/') path.toList
  generalize path.toList.rdropWhile (· == '/') = text at h hsplit hagain
  rw [hslashes] at hsplit
  by_cases hmem : '/' ∈ text
  · obtain ⟨a, b, rfl, hb⟩ := exists_last_slash hmem
    refine ⟨b, ⟨a ++ ['/'], k, ?_, Or.inr ⟨a, rfl⟩⟩, hb, ?_⟩
    · rw [← hsplit]
      simp only [List.append_assoc, List.cons_append, List.nil_append]
    · rintro rfl
      rw [List.rdropWhile_concat_pos _ _ _ (by simp)] at hagain
      have hlen := ( List.rdropWhile_prefix (· == '/') a).length_le
      rw [hagain, List.length_append, List.length_singleton] at hlen
      exact absurd hlen (Nat.not_succ_le_self _)
  · exact ⟨text, ⟨[], _, hsplit.symm, Or.inl rfl⟩, hmem, h⟩

theorem endsIn_of_lastName (h : lastName path = some name.text) : EndsIn path name.text.toList := by
  have hne : path.toList.rdropWhile (· == '/') ≠ [] := by
    intro hnil
    have hall := List.rdropWhile_eq_nil_iff.mp hnil
    have hslashes : path.toList = List.replicate path.toList.length '/' :=
      List.eq_replicate_of_mem fun c hc => beq_iff_eq.mp (hall c hc)
    rw [lastName, splitChar, hslashes, splitOn_replicate] at h
    simp at h
  obtain ⟨name', hform, hslash, hne'⟩ := exists_endsIn hne
  have hname := lastName_of_endsIn hform hslash hne'
  rw [h, Option.some.injEq] at hname
  rw [hname, String.toList_ofList]
  exact hform

theorem basename_of_endsIn (h : EndsIn path name.text.toList)
    (hback : containsChar name.text '\\' = false) : basename path = name.text := by
  have hback' : '\\' ∉ name.text.toList := by simpa [containsChar] using hback
  obtain ⟨start, k, hpath, hstart⟩ := h
  have hnormal : EndsIn (replaceChar '\\' "/" path) name.text.toList := by
    refine ⟨start.map slashed, k, ?_, ?_⟩
    · rw [toList_slashed, hpath, List.map_append, List.map_append, map_slashed_eq_self_iff.mpr hback',
        List.map_replicate]
      rfl
    · rcases hstart with rfl | ⟨rest, rfl⟩
      · exact Or.inl rfl
      · exact Or.inr ⟨rest.map slashed, by rw [List.map_append]; rfl⟩
  have hlast := lastName_of_endsIn hnormal (name.slash_notMem) (by simpa using name.text_ne.1)
  rw [String.ofList_toList] at hlast
  have hbasename : basename path = (lastName (replaceChar '\\' "/" path)).getD (replaceChar '\\' "/" path) := rfl
  rw [hbasename, hlast, Option.getD_some]

theorem endsIn_entityPath (directory : String) (name : Name) : EndsIn (entityPath directory name) name.text.toList := by
  obtain ⟨a, hjoin, -⟩ := join_eq_slash directory
  refine ⟨a ++ ['/'], 0, ?_, Or.inr ⟨a, rfl⟩⟩
  rw [entityPath, hjoin]
  simp

theorem remoteOf_of_plain {folders : List Name} {file : Name} (hplain : PlainWay folders file)
    (directory remoteRoot : String) :
    remoteOf directory remoteRoot folders file = underBase (joinBase remoteRoot) (folders ++ [file]) := by
  induction folders generalizing directory remoteRoot with
  | nil =>
    rw [remoteOf, basename_of_endsIn (endsIn_entityPath directory file) hplain.2, joinRemote_eq, List.nil_append,
      underBase_cons, underBase_nil]
  | cons name folders ih =>
    have hname := hplain.1 name List.mem_cons_self
    have hrest : PlainWay folders file := ⟨fun n hn => hplain.1 n (List.mem_cons_of_mem _ hn), hplain.2⟩
    rw [remoteOf, basename_of_endsIn (endsIn_entityPath directory name) hname.1, ih hrest,
      joinBase_joinRemote hname, joinRemote_eq, List.cons_append, underBase_cons]

def targetOf (localPath remoteDirectory : String) (f : List Name × Name) : String :=
  remoteOf localPath (joinRemote remoteDirectory (basename localPath)) f.1 f.2

theorem flaws_targetOf_le (localPath remoteDirectory : String) (f : List Name × Name) :
    flaws (targetOf localPath remoteDirectory f).toList ≤ flaws remoteDirectory.toList :=
  (flaws_remoteOf_le _ _ _ _).trans (flaws_joinRemote_le _ _)

theorem joinBase_of_trimmed (h : TrimmedFolder directory) : joinBase directory = stripSlashes directory := by
  unfold joinBase
  rw [h.1, if_neg h.2]

variable {f : List Name × Name}

theorem targetOf_of_plain {localPath remoteDirectory : String} (hlocal : EndsIn localPath name.text.toList)
    (htrimmed : TrimmedFolder remoteDirectory)
    (hplain : PlainWay (name :: f.1) f.2) :
    targetOf localPath remoteDirectory f = remoteBelow remoteDirectory (name :: f.1 ++ [f.2]) := by
  have hname := hplain.1 name List.mem_cons_self
  have hrest : PlainWay f.1 f.2 := ⟨fun n hn => hplain.1 n (List.mem_cons_of_mem _ hn), hplain.2⟩
  rw [targetOf, basename_of_endsIn hlocal hname.1, remoteOf_of_plain hrest, joinBase_joinRemote hname, joinRemote_eq,
    joinBase_of_trimmed htrimmed, remoteBelow_eq, List.cons_append, underBase_cons]

theorem head?_targetOf (localPath remoteDirectory : String) (f : List Name × Name) :
    (targetOf localPath remoteDirectory f).toList.head? =
      (joinRemote remoteDirectory (basename localPath)).toList.head? := by
  have hstep : ∀ (folders : List Name) (file : Name) (directory remoteRoot : String) (c : Char) (cs : List Char),
      remoteRoot.toList = c :: cs → isDartWhitespace c = false →
        (remoteOf directory remoteRoot folders file).toList.head? = some c := by
    intro folders file
    induction folders with
    | nil => exact fun _ _ _ _ hcs hc => head?_joinRemote hcs hc _
    | cons name folders ih =>
      intro directory remoteRoot c cs hcs hc
      obtain ⟨ds, hds⟩ := List.head?_eq_some_iff.mp
        (head?_joinRemote hcs hc (basename (entityPath directory name)))
      exact ih _ _ c ds hds hc
  obtain ⟨c, cs, hcs, hc⟩ := exists_head_joinRemote remoteDirectory (basename localPath)
  rw [targetOf, hstep _ _ _ _ c cs hcs hc, hcs, List.head?_cons]

theorem head?_append_slash (base text : List Char) : (base ++ '/' :: text).head? = (base ++ ['/']).head? := by
  cases base <;> rfl

theorem head?_underBase (file : Name) :
    (underBase base (folders ++ [file])).toList.head? = (base.toList ++ ['/']).head? := by
  induction folders generalizing base with
  | nil =>
    rw [toList_underBase_concat]
    exact head?_append_slash _ _
  | cons name folders ih =>
    rw [List.cons_append, underBase_cons, ih, ← head?_append_slash base.toList (name.text.toList ++ ['/'])]
    simp

/-- A file arrives where it should exactly when the remote folder is trimmed and the names that lead to the file
survive. -/
theorem targetOf_eq_iff {localPath remoteDirectory : String} (hlocal : EndsIn localPath name.text.toList) :
    targetOf localPath remoteDirectory f = remoteBelow remoteDirectory (name :: f.1 ++ [f.2]) ↔
      TrimmedFolder remoteDirectory ∧ PlainWay (name :: f.1) f.2 := by
  constructor
  · intro he
    have hflaws := flaws_targetOf_le localPath remoteDirectory f
    rw [he] at hflaws
    obtain ⟨hplain, hlast⟩ := plain_of_flaws_le hflaws
    have hhead := head?_targetOf localPath remoteDirectory f
    rw [he, remoteBelow_eq, head?_underBase, toList_stripSlashes] at hhead
    obtain ⟨c, cs, hcs, hc⟩ := exists_head_joinRemote remoteDirectory (basename localPath)
    refine ⟨?_, hplain⟩
    cases hdir : remoteDirectory.toList with
    | nil =>
      have hempty : remoteDirectory = "" := String.toList_inj.mp (hdir.trans String.toList_empty.symm)
      have hhome : (joinBase "").toList = ['~'] := by decide
      rw [hempty, toList_joinRemote, hhome] at hhead
      exact absurd hhead (by simp)
    | cons d ds =>
      rw [hcs, hdir, head?_strip, List.head?_cons, Option.some.injEq] at hhead
      refine ⟨(trimBy_eq_self_iff hdir (hhead ▸ hc)).mpr hlast, fun hempty => ?_⟩
      rw [hempty] at hdir
      exact absurd hdir (by simp)
  · exact fun h => targetOf_of_plain hlocal h.1 h.2

theorem flaws_remotePath_le (path : String) : flaws (Sftp.remotePath path).toList ≤ flaws path.toList := by
  have htrim : flaws (trim path).toList ≤ flaws path.toList := flaws_trimBy_le isWhitespace path
  have hstrip : flaws ((stripPrefix "~/" (trim path)).getD (trim path)).toList ≤ flaws (trim path).toList := by
    unfold stripPrefix
    split
    case isTrue =>
      rw [Option.getD_some, String.toList_ofList]
      exact flaws_le_of_end (List.drop_suffix _ _)
    case isFalse => exact le_rfl
  unfold Sftp.remotePath
  simp only
  split
  case isTrue =>
    have hdot : flaws ".".toList = 0 := by decide
    rw [hdot]
    exact Nat.zero_le _
  case isFalse => exact hstrip.trans htrim

theorem isAbsolute_remoteBelow (habs : isAbsolute directory = true) (folders : List Name)
    (file : Name) : isAbsolute (remoteBelow directory (folders ++ [file])) = true := by
  obtain ⟨cs, hcs⟩ := Sftp.isAbsolute_iff.mp habs
  have hhead : (remoteBelow directory (folders ++ [file])).toList.head? = some '/' := by
    rw [remoteBelow_eq, head?_underBase, toList_stripSlashes, hcs]
    exact head?_strip '/' cs []
  rw [isAbsolute, hhead, beq_self_eq_true]

theorem lastIs_remoteBelow (p : Char → Bool) (directory : String) (folders : List Name) (file : Name) :
    lastIs p (remoteBelow directory (folders ++ [file])) = lastIs p file.text := by
  have happend : remoteBelow directory (folders ++ [file]) =
      underBase (stripSlashes directory) folders ++ "/" ++ file.text := by
    rw [← String.toList_inj, remoteBelow_eq, toList_underBase_concat]
    simp
  rw [happend, Sftp.lastIs_append (file.text_ne.1)]

/-- Below an absolute folder, what reaches the server is right when, besides, the file's own name does not end with
white space. -/
theorem remotePath_targetOf_eq_iff {localPath remoteDirectory : String} (hlocal : EndsIn localPath name.text.toList)
    (habs : isAbsolute remoteDirectory = true) :
    Sftp.remotePath (targetOf localPath remoteDirectory f) = remoteBelow remoteDirectory (name :: f.1 ++ [f.2]) ↔
      (TrimmedFolder remoteDirectory ∧ PlainWay (name :: f.1) f.2) ∧ lastIs isWhitespace f.2.text = false := by
  have hsent : Sftp.remotePath (remoteBelow remoteDirectory (name :: f.1 ++ [f.2])) =
        remoteBelow remoteDirectory (name :: f.1 ++ [f.2]) ↔ lastIs isWhitespace f.2.text = false := by
    rw [Sftp.remotePath_eq_self_iff (isAbsolute_remoteBelow habs _ _), lastIs_remoteBelow]
  constructor
  · intro he
    have hflaws := (flaws_remotePath_le _).trans (flaws_targetOf_le localPath remoteDirectory f)
    rw [he] at hflaws
    obtain ⟨hplain, hlast⟩ := plain_of_flaws_le hflaws
    obtain ⟨cs, hcs⟩ := Sftp.isAbsolute_iff.mp habs
    have htrimmed : TrimmedFolder remoteDirectory := by
      refine ⟨(trimBy_eq_self_iff hcs Sftp.isDartWhitespace_slash).mpr hlast, fun hempty => ?_⟩
      rw [hempty] at hcs
      exact absurd hcs (by simp)
    rw [targetOf_of_plain hlocal htrimmed hplain] at he
    exact ⟨⟨htrimmed, hplain⟩, hsent.mp he⟩
  · rintro ⟨⟨htrimmed, hplain⟩, hlast⟩
    rw [targetOf_of_plain hlocal htrimmed hplain]
    exact hsent.mpr hlast

theorem toList_underBase (names : List Name) :
    (underBase base names).toList = base.toList ++ names.flatMap fun n => '/' :: n.text.toList := by
  induction names generalizing base with
  | nil => simp
  | cons name names ih =>
    rw [underBase_cons, ih]
    simp

theorem underBase_injective {base : String} {names names' : List Name} (hne : names ≠ []) (hne' : names' ≠ [])
    (h : underBase base names = underBase base names') : names = names' := by
  have hflat := congrArg String.toList h
  rw [toList_underBase, toList_underBase, List.append_cancel_left_eq] at hflat
  have hrender : Path.render names = Path.render names' := by
    rw [Path.render_ne_nil hne, Path.render_ne_nil hne', hflat]
  have hsplit := congrArg (splitChar '/') hrender
  rw [Path.splitChar_render hne, Path.splitChar_render hne', List.cons.injEq] at hsplit
  refine List.map_injective_iff.mpr (fun n n' htext => ?_) hsplit.2
  cases n
  cases n'
  cases htext
  rfl

/-- The uploads are those that the tree asks for, and different files go to different places. -/
def PreservesTree (localPath : String) (name : Name) (entries : Listing) (remoteDirectory : String)
    (made : List (String × String)) : Prop :=
  made = treeUploads localPath name entries remoteDirectory ∧ ∀ u ∈ made, ∀ v ∈ made, u.2 = v.2 → u.1 = v.1

theorem preservesTree_iff {localPath remoteDirectory : String} {entries : Listing} {made : List (String × String)} :
    PreservesTree localPath name entries remoteDirectory made ↔
      made = treeUploads localPath name entries remoteDirectory := by
  refine and_iff_left_of_imp ?_
  rintro rfl u hu v hv heq
  obtain ⟨f, -, rfl⟩ := List.mem_map.mp hu
  obtain ⟨g, -, rfl⟩ := List.mem_map.mp hv
  have hnames := underBase_injective (by simp) (by simp) heq
  have hrest : f.1 ++ [f.2] = g.1 ++ [g.2] := (List.cons.inj hnames).2
  exact congrArg (localBelow localPath) hrest

def LocalEntity.NoFiles : LocalEntity → Prop
  | .notFound => True
  | .file => False
  | .directory entries => entries.files = []

def UploadsRight (disk : String → LocalEntity) (localPath : String) (name : Name) (entries : Listing)
    (remoteDirectory : String) : Prop :=
  if dartTrim localPath = localPath then
    ∀ f ∈ entries.files, TrimmedFolder remoteDirectory ∧ PlainWay (name :: f.1) f.2
  else entries.files = [] ∧ (disk (dartTrim localPath)).NoFiles

def uploadsFrom (path remoteDirectory : String) : LocalEntity → List (String × String)
  | .notFound => []
  | .file => [(path, joinRemote remoteDirectory (basename path))]
  | .directory entries =>
    entries.files.map fun f => (localBelow path (f.1 ++ [f.2]), targetOf path remoteDirectory f)

section Upload

variable {disk : String → LocalEntity} {sessionId localPath remoteDirectory : String}
  {remoteRows : List SftpFileEntry} {overwrite : Bool} {name : Name} {entries : Listing}

theorem uploads_uploadLocalPath (haccepted : overwrite = true ∨
      remoteTargetExistsForLocalPath remoteRows (dartTrim localPath) remoteDirectory = false) :
    uploads (asked (uploadLocalPath disk (some sessionId) remoteRows localPath remoteDirectory overwrite)) =
      uploadsFrom (dartTrim localPath) remoteDirectory (disk (dartTrim localPath)) := by
  have hguard : (!overwrite && remoteTargetExistsForLocalPath remoteRows (dartTrim localPath) remoteDirectory) =
      false := by
    rcases haccepted with h | h <;> simp [h]
  unfold uploadLocalPath
  simp only [hguard]
  cases disk (dartTrim localPath) with
  | notFound => rfl
  | file => rfl
  | directory entries => exact uploads_uploadDirectory _ _ _

theorem uploadsFrom_eq_nil_iff (remoteDirectory path : String) (found : LocalEntity) :
    uploadsFrom path remoteDirectory found = [] ↔ found.NoFiles := by
  cases found with
  | notFound => exact iff_of_true rfl trivial
  | file => exact iff_of_false (List.cons_ne_nil _ _) id
  | directory entries => exact List.map_eq_nil_iff

theorem toList_entityPath (directory : String) (n : Name) :
    ∃ text, (entityPath directory n).toList = directory.toList ++ text ∧ text ≠ [] ∧
      (directory = "" → text.head? = some '/') := by
  unfold entityPath Sftp.join
  split
  case isTrue hend =>
    refine ⟨n.text.toList, String.toList_append, n.toList_ne_nil, ?_⟩
    rintro rfl
    exact absurd hend (by decide)
  case isFalse => exact ⟨'/' :: n.text.toList, by simp, List.cons_ne_nil _ _, fun _ => rfl⟩

theorem head?_localBelow {c : Char} (hcs : directory.toList = c :: cs)
    (names : List Name) : (localBelow directory names).toList.head? = some c := by
  induction names generalizing directory cs with
  | nil => rw [localBelow, List.foldl_nil, hcs, List.head?_cons]
  | cons n names ih =>
    obtain ⟨text, htext, -, -⟩ := toList_entityPath directory n
    rw [hcs, List.cons_append] at htext
    exact ih htext

theorem firstIs_localBelow (h : firstIs isDartWhitespace directory = false)
    (names : List Name) : firstIs isDartWhitespace (localBelow directory names) = false := by
  cases hdir : directory.toList with
  | cons c cs =>
    rw [firstIs, hdir] at h
    rw [firstIs, head?_localBelow hdir]
    exact h
  | nil =>
    have hempty : directory = "" := String.toList_inj.mp (hdir.trans String.toList_empty.symm)
    cases names with
    | nil => rw [localBelow, List.foldl_nil, hempty]; rfl
    | cons n names =>
      obtain ⟨text, htext, -, hslash⟩ := toList_entityPath directory n
      obtain ⟨cs, hcs⟩ := List.head?_eq_some_iff.mp (hslash hempty)
      rw [hdir, List.nil_append, hcs] at htext
      have hhead := head?_localBelow htext names
      rw [firstIs, localBelow, List.foldl_cons, ← localBelow, hhead]
      exact Sftp.isDartWhitespace_slash

theorem ne_empty_of_endsIn (h : EndsIn localPath name.text.toList) : ∃ c cs, localPath.toList = c :: cs := by
  obtain ⟨start, k, hpath, -⟩ := h
  refine List.exists_cons_of_ne_nil fun hnil => ?_
  rw [hpath] at hnil
  exact name.toList_ne_nil (List.append_eq_nil_iff.mp (List.append_eq_nil_iff.mp hnil).2).1

theorem lastIs_of_endsIn (h : EndsIn localPath name.text.toList) (hname : lastIs isDartWhitespace name.text = false) :
    lastIs isDartWhitespace localPath = false := by
  obtain ⟨start, k, hpath, -⟩ := h
  rw [lastIs, hpath]
  cases k with
  | zero =>
    rw [List.replicate_zero, List.append_nil, List.getLast?_append_of_ne_nil _ name.toList_ne_nil]
    exact hname
  | succ k =>
    rw [List.replicate_succ', ← List.append_assoc, ← List.append_assoc, List.getLast?_concat]
    exact Sftp.isDartWhitespace_slash

/-- No upload has a flaw that the remote folder does not have, or comes from a path that starts with white
space. -/
theorem uploadsFrom_sound (localPath remoteDirectory : String) (found : LocalEntity) :
    ∀ u ∈ uploadsFrom (dartTrim localPath) remoteDirectory found,
      flaws u.2.toList ≤ flaws remoteDirectory.toList ∧ firstIs isDartWhitespace u.1 = false := by
  intro u hu
  have hfirst : firstIs isDartWhitespace (dartTrim localPath) = false := firstIs_trimBy isDartWhitespace localPath
  cases found with
  | notFound => cases hu
  | file =>
    obtain rfl := List.mem_singleton.mp hu
    exact ⟨flaws_joinRemote_le _ _, hfirst⟩
  | directory entries =>
    obtain ⟨f, -, rfl⟩ := List.mem_map.mp hu
    exact ⟨flaws_targetOf_le _ _ _, firstIs_localBelow hfirst _⟩

theorem files_eq_nil_of_untrimmed {made : List (String × String)} (hlocal : EndsIn localPath name.text.toList)
    (huntrimmed : dartTrim localPath ≠ localPath) (hmade : made = treeUploads localPath name entries remoteDirectory)
    (hsound : ∀ u ∈ made, flaws u.2.toList ≤ flaws remoteDirectory.toList ∧ firstIs isDartWhitespace u.1 = false) :
    entries.files = [] := by
  by_contra hne
  obtain ⟨f, hf⟩ := List.exists_mem_of_ne_nil _ hne
  have hmem : (localBelow localPath (f.1 ++ [f.2]), remoteBelow remoteDirectory (name :: f.1 ++ [f.2])) ∈ made := by
    rw [hmade]
    exact List.mem_map.mpr ⟨f, hf, rfl⟩
  obtain ⟨hflaws, hfirst⟩ := hsound _ hmem
  have hplain := (plain_of_flaws_le hflaws).1.1 name List.mem_cons_self
  obtain ⟨c, cs, hcs⟩ := ne_empty_of_endsIn hlocal
  refine huntrimmed (trimBy_eq_self_of ?_ (lastIs_of_endsIn hlocal hplain.2))
  rw [firstIs, head?_localBelow hcs] at hfirst
  rw [firstIs, hcs]
  exact hfirst

theorem uploads_resolved (calls : List RemoteCall) :
    uploads (calls.map RemoteCall.resolved) = (uploads calls).map fun u => (u.1, Sftp.remotePath u.2) := by
  induction calls with
  | nil => rfl
  | cons call calls ih =>
    cases call with
    | upload localPath remotePath => exact congrArg (List.cons _) ih
    | rename source target => exact ih
    | copy source target => exact ih
    | createDir path => exact ih

/-- The upload of a folder preserves its tree exactly when the path of the folder is not trimmed, the remote folder
is not, and no name on the way to a regular file has a backslash or, if it is a folder's, ends with white space; or
when there is no regular file. The server gets the same paths exactly when, besides, no file's own name ends with
white space. -/
theorem upload_preserves_tree_iff (hname : lastName localPath = some name.text)
    (hfolder : disk localPath = .directory entries)
    (haccepted : overwrite = true ∨
      remoteTargetExistsForLocalPath remoteRows (dartTrim localPath) remoteDirectory = false) :
    (PreservesTree localPath name entries remoteDirectory
        (uploads (asked (uploadLocalPath disk (some sessionId) remoteRows localPath remoteDirectory overwrite))) ↔
      UploadsRight disk localPath name entries remoteDirectory) ∧
    (isAbsolute remoteDirectory = true →
      (PreservesTree localPath name entries remoteDirectory
          (uploads ((asked (uploadLocalPath disk (some sessionId) remoteRows localPath remoteDirectory
            overwrite)).map RemoteCall.resolved)) ↔
        UploadsRight disk localPath name entries remoteDirectory ∧
          ∀ f ∈ entries.files, lastIs isWhitespace f.2.text = false)) := by
  have hlocal := endsIn_of_lastName hname
  rw [uploads_resolved, uploads_uploadLocalPath haccepted, preservesTree_iff, preservesTree_iff, UploadsRight]
  by_cases htrimmed : dartTrim localPath = localPath
  · rw [htrimmed, hfolder, if_pos rfl, uploadsFrom, treeUploads, List.map_map, List.map_inj_left, List.map_inj_left]
    refine ⟨forall₂_congr fun f _ => ?_, fun habs => ?_⟩
    · rw [Prod.mk.injEq, and_iff_right rfl]
      exact targetOf_eq_iff hlocal
    · rw [← forall₂_and]
      refine forall₂_congr fun f _ => ?_
      rw [Function.comp_apply, Prod.mk.injEq, and_iff_right rfl]
      exact remotePath_targetOf_eq_iff hlocal habs
  · rw [if_neg htrimmed]
    have hsound := uploadsFrom_sound localPath remoteDirectory (disk (dartTrim localPath))
    have hnothing := uploadsFrom_eq_nil_iff remoteDirectory (dartTrim localPath) (disk (dartTrim localPath))
    generalize uploadsFrom (dartTrim localPath) remoteDirectory (disk (dartTrim localPath)) = made at hsound hnothing ⊢
    have hempty : entries.files = [] → treeUploads localPath name entries remoteDirectory = [] := by
      intro h
      rw [treeUploads, h, List.map_nil]
    refine ⟨⟨fun he => ?_, fun h => ?_⟩, fun _ => ⟨fun he => ?_, fun h => ?_⟩⟩
    · have hfiles := files_eq_nil_of_untrimmed hlocal htrimmed he hsound
      exact ⟨hfiles, hnothing.mp (he.trans (hempty hfiles))⟩
    · rw [hnothing.mpr h.2, hempty h.1]
    · have hsent : ∀ u ∈ made.map fun u => (u.1, Sftp.remotePath u.2),
          flaws u.2.toList ≤ flaws remoteDirectory.toList ∧ firstIs isDartWhitespace u.1 = false := by
        intro u hu
        obtain ⟨v, hv, rfl⟩ := List.mem_map.mp hu
        exact ⟨(flaws_remotePath_le v.2).trans (hsound v hv).1, (hsound v hv).2⟩
      have hfiles := files_eq_nil_of_untrimmed hlocal htrimmed he hsent
      rw [hempty hfiles, List.map_eq_nil_iff] at he
      refine ⟨⟨hfiles, hnothing.mp he⟩, fun f hf => ?_⟩
      rw [hfiles] at hf
      cases hf
    · rw [hnothing.mpr h.1.2, hempty h.1.1, List.map_nil]

end Upload

theorem validName_a : validName "a" = true := by decide

def ordinaryFolder : Listing :=
  .dir ⟨"sub", by decide⟩ (.file ⟨"b c", by decide⟩ .nil) (.file ⟨"a", validName_a⟩ .nil)

theorem upload_preserves_tree_ordinary :
    PreservesTree "/home/top" ⟨"top", by decide⟩ ordinaryFolder "/data"
        (uploads (asked (uploadLocalPath (fun _ => .directory ordinaryFolder) (some "sftp-1") [] "/home/top" "/data"
          false))) ∧
      PreservesTree "/home/top" ⟨"top", by decide⟩ ordinaryFolder "/data"
        (uploads ((asked (uploadLocalPath (fun _ => .directory ordinaryFolder) (some "sftp-1") [] "/home/top" "/data"
          false)).map RemoteCall.resolved)) := by
  have hright : UploadsRight (fun _ => .directory ordinaryFolder) "/home/top" ⟨"top", by decide⟩
      ordinaryFolder "/data" := by
    unfold UploadsRight
    rw [if_pos (by decide)]
    decide
  have hname : lastName "/home/top" = some "top" := by decide
  exact ⟨(upload_preserves_tree_iff hname rfl (.inr rfl)).1.mpr hright,
    ((upload_preserves_tree_iff hname rfl (.inr rfl)).2 (by decide)).mpr ⟨hright, by decide⟩⟩

def clashingFolder : Listing :=
  .file ⟨"a\\b", by decide⟩ (.file ⟨"b", by decide⟩ .nil)

/-- Both files are uploaded to one remote path. -/
theorem upload_loses_file :
    lastName "/home/top" = some "top" ∧
      uploads (asked (uploadLocalPath (fun _ => .directory clashingFolder) (some "sftp-1") [] "/home/top" "/data"
          false)) =
        [("/home/top/a\\b", "/data/top/b"), ("/home/top/b", "/data/top/b")] ∧
      ¬ PreservesTree "/home/top" ⟨"top", by decide⟩ clashingFolder "/data"
        (uploads (asked (uploadLocalPath (fun _ => .directory clashingFolder) (some "sftp-1") [] "/home/top" "/data"
          false))) := by
  have hmade : uploads (asked (uploadLocalPath (fun _ => .directory clashingFolder) (some "sftp-1") [] "/home/top"
      "/data" false)) = [("/home/top/a\\b", "/data/top/b"), ("/home/top/b", "/data/top/b")] := by
    decide
  refine ⟨by decide, hmade, fun h => ?_⟩
  rw [hmade] at h
  have hsame := h.2 ("/home/top/a\\b", "/data/top/b") (by decide) ("/home/top/b", "/data/top/b") (by decide) rfl
  exact absurd hsame (by decide)

end Portix.SftpWorkspace
