import Portix.SftpWorkspace.FileOperations
import Portix.Sftp.Proofs.EntryPathProofs

/-!
# Proofs: renaming and duplicating

The target of a renaming is made from the path of the entry after each `\` in it has become a `/`. It is
in the folder of the entry exactly when this moves no slash that counts: the folder has no `\` in its path,
and the name has none but at its end.
-/

namespace Portix.SftpWorkspace

open Lib

def slashed (c : Char) : Char := if c = '\\' then '/' else c

theorem slashed_eq_slash_iff {c : Char} (hc : c ≠ '/') : slashed c = '/' ↔ c = '\\' := by
  unfold slashed
  split
  case isTrue h => exact ⟨fun _ => h, fun _ => rfl⟩
  case isFalse h => exact ⟨fun he => absurd he hc, fun he => absurd he h⟩

theorem toList_slashed (path : String) : (replaceChar '\\' "/" path).toList = path.toList.map slashed := by
  unfold replaceChar
  rw [String.toList_ofList, List.map_eq_flatMap]
  congr 1
  funext c
  unfold slashed
  split <;> rfl

variable {cs : List Char}

theorem map_slashed_eq_self_iff : cs.map slashed = cs ↔ '\\' ∉ cs := by
  induction cs with
  | nil => simp
  | cons c cs ih =>
    rw [List.map_cons, List.cons.injEq, ih, List.mem_cons, not_or]
    refine and_congr_left fun _ => ?_
    unfold slashed
    split
    case isTrue h => simp [h]
    case isFalse h => simp [Ne.symm h]

theorem backslash_notMem_map_slashed (cs : List Char) : '\\' ∉ cs.map slashed := by
  intro h
  obtain ⟨c, -, hc⟩ := List.mem_map.mp h
  unfold slashed at hc
  split at hc
  case isTrue => exact absurd hc (by decide)
  case isFalse hne => exact hne hc

theorem toList_stripSlashes (path : String) : (stripSlashes path).toList = path.toList.rdropWhile (· == '/') := by
  rw [stripSlashes, String.toList_ofList]

theorem exists_last_slash (h : '/' ∈ cs) : ∃ a b, cs = a ++ '/' :: b ∧ '/' ∉ b := by
  induction cs with
  | nil => cases h
  | cons c cs ih =>
    by_cases hcs : '/' ∈ cs
    · obtain ⟨a, b, rfl, hb⟩ := ih hcs
      exact ⟨c :: a, b, rfl, hb⟩
    · rcases List.mem_cons.mp h with rfl | h
      · exact ⟨[], cs, rfl, hcs⟩
      · exact absurd h hcs

variable {path oldPath newName : String}

theorem beforeLastSlash_eq_some {a b : List Char} (hpath : path.toList = a ++ '/' :: b)
    (hb : '/' ∉ b) : beforeLastSlash path = some (String.ofList a) := by
  have hmem : containsChar path '/' = true := by simp [containsChar, hpath]
  have hdrop : path.toList.rdropWhile (· != '/') = a ++ ['/'] := by
    have hnil : b.rdropWhile (· != '/') = [] :=
      List.rdropWhile_eq_nil_iff.mpr fun c hc => bne_iff_ne.mpr fun he => hb (he ▸ hc)
    rw [hpath, List.append_cons, rdropWhile_append_of_nil hnil, List.rdropWhile_concat_neg]
    simp
  rw [beforeLastSlash, if_pos hmem, hdrop, List.dropLast_concat]

theorem beforeLastSlash_eq_none (h : '/' ∉ path.toList) : beforeLastSlash path = none := by
  have hmem : containsChar path '/' = false := by simpa [containsChar] using h
  rw [beforeLastSlash, hmem]
  rfl

theorem join_eq_slash (folder : String) : ∃ a : List Char,
    (∀ name, (Sftp.join folder name).toList = a ++ '/' :: name.toList) ∧
      ('\\' ∈ a ↔ containsChar folder '\\' = true) := by
  by_cases hend : endsWith folder '/' = true
  · have hlast : folder.toList.getLast? = some '/' := by simpa [endsWith] using hend
    obtain ⟨a, ha⟩ := List.getLast?_eq_some_iff.mp hlast
    refine ⟨a, fun name => ?_, ?_⟩
    · simp [Sftp.join, hend, ha]
    · simp [containsChar, ha]
  · refine ⟨folder.toList, fun name => ?_, ?_⟩
    · simp [Sftp.join, hend]
    · simp [containsChar]

def stem (name : String) : String := String.ofList (name.toList.rdropWhile (· == '\\'))

/-- The last slash of an entry's path is still the last one that counts when backslashes are slashes, and
there is none before it that was a backslash. -/
def KeepsSplit (folder name : String) : Prop :=
  containsChar folder '\\' = false ∧ stem name ≠ "" ∧ containsChar (stem name) '\\' = false

instance (folder name : String) : Decidable (KeepsSplit folder name) :=
  inferInstanceAs (Decidable (_ ∧ _ ∧ _))

theorem toList_stem (name : String) : (stem name).toList = name.toList.rdropWhile (· == '\\') := by
  rw [stem, String.toList_ofList]

theorem rdropWhile_map_slashed (h : '/' ∉ cs) :
    (cs.map slashed).rdropWhile (· == '/') = (cs.rdropWhile (· == '\\')).map slashed := by
  induction cs using List.reverseRecOn with
  | nil => rfl
  | append_singleton cs c ih =>
    have hc : c ≠ '/' := fun he => h (by simp [he])
    have hcs : '/' ∉ cs := fun hm => h (List.mem_append_left _ hm)
    rw [List.map_append, List.map_singleton]
    by_cases hback : c = '\\'
    · rw [List.rdropWhile_concat_pos _ _ _ (by simp [hback, slashed]),
        List.rdropWhile_concat_pos _ _ _ (by simp [hback]), ih hcs]
    · rw [List.rdropWhile_concat_neg _ _ _ (by simpa using fun he => hback ((slashed_eq_slash_iff hc).mp he)),
        List.rdropWhile_concat_neg _ _ _ (by simpa using hback), List.map_append, List.map_singleton]

theorem slash_mem_map_slashed_iff (h : '/' ∉ cs) : '/' ∈ cs.map slashed ↔ '\\' ∈ cs := by
  constructor
  · intro hm
    obtain ⟨c, hc, he⟩ := List.mem_map.mp hm
    have hne : c ≠ '/' := fun hslash => h (hslash ▸ hc)
    exact (slashed_eq_slash_iff hne).mp he ▸ hc
  · intro hm
    exact List.mem_map.mpr ⟨'\\', hm, rfl⟩

theorem toList_renameTargetPath_of_slash (newName : String) {a b : List Char}
    (h : (stripSlashes (replaceChar '\\' "/" oldPath)).toList = a ++ '/' :: b) (hb : '/' ∉ b) :
    (renameTargetPath oldPath newName).toList = a ++ '/' :: newName.toList := by
  unfold renameTargetPath
  simp only [beforeLastSlash_eq_some h hb]
  split
  case isTrue he =>
    have ha : a = [] := by simpa using he
    simp [ha]
  case isFalse => simp

theorem renameTargetPath_of_no_slash (h : '/' ∉ (stripSlashes (replaceChar '\\' "/" oldPath)).toList) :
    renameTargetPath oldPath newName = newName := by
  unfold renameTargetPath
  simp only [beforeLastSlash_eq_none h]

theorem length_renameTargetPath_lt (newName : String) {a n : List Char}
    (hpath : oldPath.toList = a ++ '/' :: n) (hn : (n.map slashed).rdropWhile (· == '/') = []) :
    (renameTargetPath oldPath newName).toList.length < (a ++ '/' :: newName.toList).length := by
  have hnormal : (stripSlashes (replaceChar '\\' "/" oldPath)).toList = (a.map slashed).rdropWhile (· == '/') := by
    rw [toList_stripSlashes, toList_slashed, hpath, List.append_cons, List.map_append,
      rdropWhile_append_of_nil hn, List.map_append, List.map_singleton]
    exact List.rdropWhile_concat_pos _ _ _ rfl
  have hlen := ( List.rdropWhile_prefix (· == '/') (l := a.map slashed)).length_le
  rw [List.length_map] at hlen
  rw [List.length_append, List.length_cons]
  by_cases hslash : '/' ∈ (stripSlashes (replaceChar '\\' "/" oldPath)).toList
  · obtain ⟨u, v, huv, hv⟩ := exists_last_slash hslash
    rw [← hnormal, huv, List.length_append, List.length_cons] at hlen
    rw [toList_renameTargetPath_of_slash _ huv hv, List.length_append, List.length_cons]
    omega
  · rw [renameTargetPath_of_no_slash hslash]
    omega

/-- The target of a renaming is the new name in the folder of the entry exactly when the path of the entry is
still split between the two. -/
theorem renameTargetPath_eq_join_iff {name : String} (folder newName : String) (hname : '/' ∉ name.toList) :
    renameTargetPath (Sftp.join folder name) newName = Sftp.join folder newName ↔ KeepsSplit folder name := by
  obtain ⟨a, hjoin, ha⟩ := join_eq_slash folder
  have hfolder : containsChar folder '\\' = false ↔ '\\' ∉ a := by
    rw [ha, Bool.not_eq_true]
  have hstem : containsChar (stem name) '\\' = false ↔ '\\' ∉ (stem name).toList := by
    simp [containsChar]
  have hend : (name.toList.map slashed).rdropWhile (· == '/') = (stem name).toList.map slashed := by
    rw [toList_stem, rdropWhile_map_slashed hname]
  rw [← String.toList_inj, hjoin newName]
  by_cases hempty : stem name = ""
  · rw [hempty] at hend
    have hlen := length_renameTargetPath_lt newName (hjoin name) hend
    constructor
    · intro he
      rw [he] at hlen
      exact absurd hlen (lt_irrefl _)
    · exact fun h => absurd hempty h.2.1
  · have hne : (name.toList.map slashed).rdropWhile (· == '/') ≠ [] := by
      rw [hend]
      simpa using hempty
    have hnormal : (stripSlashes (replaceChar '\\' "/" (Sftp.join folder name))).toList =
        a.map slashed ++ '/' :: (stem name).toList.map slashed := by
      rw [toList_stripSlashes, toList_slashed, hjoin, List.append_cons, List.map_append,
        rdropWhile_append hne, hend, List.map_append, List.append_assoc]
      rfl
    have hslash : '/' ∉ (stem name).toList := by
      rw [toList_stem]
      exact fun hm => hname (( List.rdropWhile_prefix _ _).subset hm)
    by_cases hback : '\\' ∈ (stem name).toList
    · -- The name itself is split: the target is one level too deep.
      obtain ⟨u, v, huv, hv⟩ := exists_last_slash ((slash_mem_map_slashed_iff hslash).mpr hback)
      rw [huv, ← List.cons_append, ← List.append_assoc] at hnormal
      rw [toList_renameTargetPath_of_slash _ hnormal hv]
      constructor
      · intro he
        have hlen := congrArg List.length he
        simp only [List.length_append, List.length_cons, List.length_map] at hlen
        omega
      · exact fun h => absurd hback (hstem.mp h.2.2)
    · rw [toList_renameTargetPath_of_slash _ hnormal (fun hm => hback ((slash_mem_map_slashed_iff hslash).mp hm)),
        List.append_cancel_right_eq, map_slashed_eq_self_iff]
      exact ⟨fun h => ⟨hfolder.mpr h, hempty, hstem.mpr hback⟩, fun h => hfolder.mp h.1⟩

theorem slash_notMem_remotePath (h : '/' ∉ path.toList) : '/' ∉ (Sftp.remotePath path).toList := by
  have htrim : (trim path).toList ⊆ path.toList := by
    unfold trim trimBy
    rw [String.toList_ofList]
    exact fun c hc => (List.dropWhile_sublist _).subset (( List.rdropWhile_prefix _ _).subset hc)
  have hstrip : ((stripPrefix "~/" (trim path)).getD (trim path)).toList ⊆ (trim path).toList := by
    unfold stripPrefix
    split
    case isTrue =>
      rw [Option.getD_some, String.toList_ofList]
      exact List.drop_subset _ _
    case isFalse => exact List.Subset.refl _
  unfold Sftp.remotePath
  simp only
  split
  case isTrue => decide
  case isFalse => exact fun hm => h (htrim (hstrip hm))

theorem remotePath_renameTargetPath_iff {folder : String} (hold : isAbsolute oldPath = true)
    (hslash : '/' ∉ newName.toList) (hne : newName ≠ "") (hend : lastIs isWhitespace newName = false) :
    Sftp.remotePath (renameTargetPath oldPath newName) = Sftp.join folder newName ↔
      renameTargetPath oldPath newName = Sftp.join folder newName := by
  obtain ⟨a, hjoin, -⟩ := join_eq_slash folder
  by_cases hmem : '/' ∈ (stripSlashes (replaceChar '\\' "/" oldPath)).toList
  · obtain ⟨u, v, huv, hv⟩ := exists_last_slash hmem
    have htarget := toList_renameTargetPath_of_slash newName huv hv
    have habs : isAbsolute (renameTargetPath oldPath newName) = true := by
      obtain ⟨cs, hcs⟩ := Sftp.isAbsolute_iff.mp hold
      have hinit : u ++ '/' :: v <+: '/' :: cs.map slashed := by
        rw [← huv, toList_stripSlashes, toList_slashed, hcs]
        exact List.rdropWhile_prefix _ _
      rw [Sftp.isAbsolute_iff, htarget]
      cases u with
      | nil => exact ⟨_, rfl⟩
      | cons d u => exact ⟨u ++ '/' :: newName.toList, by rw [(List.cons_prefix_cons.mp hinit).1]; rfl⟩
    have hlast : lastIs isWhitespace (renameTargetPath oldPath newName) = false := by
      have happend : renameTargetPath oldPath newName = String.ofList (u ++ ['/']) ++ newName := by
        rw [← String.toList_inj, htarget]
        simp
      rw [happend, Sftp.lastIs_append hne]
      exact hend
    rw [(Sftp.remotePath_eq_self_iff habs).mpr hlast]
  · rw [renameTargetPath_of_no_slash hmem]
    have hjoined : '/' ∈ (Sftp.join folder newName).toList := by simp [hjoin]
    constructor
    · exact fun he => absurd (he ▸ hjoined) (slash_notMem_remotePath hslash)
    · exact fun he => absurd (he ▸ hjoined) hslash

/-- The name that the user gave is accepted. -/
def Accepted (newName : String) : Prop := dartTrim newName ≠ "" ∧ isPath (dartTrim newName) = false

instance (newName : String) : Decidable (Accepted newName) := inferInstanceAs (Decidable (_ ∧ _))

theorem asked_program {sessionId : String} {file : SftpFileEntry} (op : NamingOperation)
    (hpath : file.path = some path) (haccepted : Accepted newName) :
    asked (op.program (some sessionId) file newName) = [op.call path (renameTargetPath path (dartTrim newName))] := by
  obtain ⟨hne, hnopath⟩ := haccepted
  cases op with
  | rename =>
    simp only [NamingOperation.program, renameRemotePath, hpath, if_neg hne, hnopath]
    rfl
  | duplicate =>
    simp only [NamingOperation.program, duplicateRemotePath, hpath, if_neg hne, hnopath]
    rfl

theorem call_inj (op : NamingOperation) {source target source' target' : String} :
    op.call source target = op.call source' target' ↔ source = source' ∧ target = target' := by
  cases op with
  | rename => exact RemoteCall.rename.injEq .. ▸ Iff.rfl
  | duplicate => exact RemoteCall.copy.injEq .. ▸ Iff.rfl

theorem resolved_call (op : NamingOperation) (source target : String) :
    (op.call source target).resolved = op.call (Sftp.remotePath source) (Sftp.remotePath target) := by
  cases op with
  | rename => rfl
  | duplicate => rfl

/-- Renaming and duplicating ask for an operation on the entry's own path, with the new name in its folder as
the target, exactly when the path is still split between folder and name once each backslash is a slash. The
server gets these paths exactly when, besides, the name does not end with white space. -/
theorem keeps_folder_iff {folder name newName sessionId : String} {file : SftpFileEntry} (op : NamingOperation)
    (habs : isAbsolute folder = true) (hname : Sftp.isSafeEntryName name false = true)
    (hpath : file.path = some (Sftp.join folder name)) (haccepted : Accepted newName) :
    (asked (op.program (some sessionId) file newName) =
        [op.call (Sftp.join folder name) (Sftp.join folder (dartTrim newName))] ↔ KeepsSplit folder name) ∧
      ((asked (op.program (some sessionId) file newName)).map RemoteCall.resolved =
          [op.call (Sftp.join folder name) (Sftp.join folder (dartTrim newName))] ↔
        KeepsSplit folder name ∧ lastIs isWhitespace name = false) := by
  have hslash : '/' ∉ name.toList := by
    intro hm
    simp [Sftp.isSafeEntryName, containsChar, hm] at hname
  have hsplit := renameTargetPath_eq_join_iff folder (dartTrim newName) hslash
  rw [asked_program op hpath haccepted, List.map_singleton, resolved_call]
  simp only [List.cons.injEq, and_true, call_inj]
  constructor
  · rw [← hsplit]
    exact and_iff_right trivial
  · have hnew : '/' ∉ (dartTrim newName).toList := by
      intro hm
      have hpathlike := haccepted.2
      simp [isPath, containsChar, hm] at hpathlike
    have hend : lastIs isWhitespace (dartTrim newName) = false :=
      lastIs_mono Sftp.isDartWhitespace_of_isWhitespace (lastIs_trimBy isDartWhitespace newName)
    have hjoin : isAbsolute (Sftp.join folder name) = true := Sftp.isAbsolute_join habs
    rw [remotePath_renameTargetPath_iff hjoin hnew haccepted.1 hend, hsplit, Sftp.remotePath_eq_self_iff hjoin,
      Sftp.lastIs_join (Sftp.isSafeEntryName_ne_empty hname)]
    exact and_comm

def rowIn (folder name : String) : SftpFileEntry where
  name := name
  size := "0 B"
  modified := ""
  path := some (Sftp.join folder name)

/-- A plain name, and one that ends with a backslash. -/
theorem keeps_folder_ordinary :
    asked (NamingOperation.rename.program (some "sftp-1") (rowIn "/home" "notes") " todo ") =
        [NamingOperation.rename.call (Sftp.join "/home" "notes") (Sftp.join "/home" (dartTrim " todo "))] ∧
      (asked (NamingOperation.duplicate.program (some "sftp-1") (rowIn "/" "odd\\") "even")).map
          RemoteCall.resolved =
        [NamingOperation.duplicate.call (Sftp.join "/" "odd\\") (Sftp.join "/" (dartTrim "even"))] :=
  ⟨(keeps_folder_iff .rename (by decide) (by decide) rfl (by decide)).1.mpr
      (by decide),
    (keeps_folder_iff .duplicate (by decide) (by decide) rfl (by decide)).2.mpr
      (by decide)⟩

/-- The file `a\b` is moved into another folder, and so is its copy. -/
theorem leaves_folder :
    isAbsolute "/dir" = true ∧ Sftp.isSafeEntryName "a\\b" false = true ∧ Accepted "new" ∧
      (rowIn "/dir" "a\\b").path = some (Sftp.join "/dir" "a\\b") ∧
      asked (renameRemotePath (some "sftp-1") (rowIn "/dir" "a\\b") "new") =
        [.rename "/dir/a\\b" "/dir/a/new"] ∧
      asked (duplicateRemotePath (some "sftp-1") (rowIn "/dir" "a\\b") "new") =
        [.copy "/dir/a\\b" "/dir/a/new"] ∧
      Sftp.join "/dir" "new" ≠ "/dir/a/new" := by
  decide

end Portix.SftpWorkspace
