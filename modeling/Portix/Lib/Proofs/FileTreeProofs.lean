import Portix.Lib.FileTree

/-!
# Proofs: file trees

What a tree looks like below a path, what taking an entry out changes, and where resolution ends.
-/

namespace Portix.Lib

theorem Name.ofString?_text (n : Name) : Name.ofString? n.text = some n := by
  unfold Name.ofString?
  rw [dif_pos n.valid]

theorem Name.text_of_ofString? {c : String} {n : Name} (h : Name.ofString? c = some n) : n.text = c := by
  unfold Name.ofString? at h
  split at h
  · rw [← Option.some.inj h]
  · cases h

theorem Name.text_ne (n : Name) : n.text ≠ "" ∧ n.text ≠ "." ∧ n.text ≠ ".." := by
  have h := n.valid
  simp only [validName, Bool.and_eq_true, decide_eq_true_eq] at h
  exact ⟨h.1.1.1, h.1.1.2, h.1.2⟩

theorem Name.slash_notMem (n : Name) : '/' ∉ n.text.toList := by
  have h := n.valid
  simp only [validName, Bool.and_eq_true, Bool.not_eq_true'] at h
  simpa [containsChar] using h.2

theorem Name.toList_ne_nil (n : Name) : n.text.toList ≠ [] :=
  fun he => n.text_ne.1 (String.toList_inj.mp (by rw [he]; rfl))

section Lookup

variable {entries : List (Path × Node)} {p : Path}

theorem lookup_ne_nil (hp : p ≠ []) : lookup entries p = (entries.find? fun e => e.1 = p).map Prod.snd := if_neg hp

theorem lookup_isSome_iff (hp : p ≠ []) : (lookup entries p).isSome = true ↔ ∃ n, (p, n) ∈ entries := by
  rw [lookup_ne_nil hp, Option.isSome_map, List.find?_isSome]
  constructor
  · rintro ⟨e, he, heq⟩
    have hep : e.1 = p := by simpa using heq
    exact ⟨e.2, by rw [← hep]; exact he⟩
  · rintro ⟨n, hn⟩
    exact ⟨(p, n), hn, by simp⟩

theorem lookup_filter_ne {q : Path} (hp : p ≠ []) :
    lookup (entries.filter fun e => e.1 ≠ p) q = if q = p then none else lookup entries q := by
  by_cases hq : q = []
  · subst hq
    rw [if_neg (fun he => hp he.symm)]
    rfl
  · rw [lookup_ne_nil hq, List.find?_filter]
    split
    · rename_i hqp
      subst hqp
      rw [Option.map_eq_none_iff, List.find?_eq_none]
      intro e _
      simp
    · rename_i hqp
      rw [lookup_ne_nil hq]
      congr 2
      funext e
      by_cases he : e.1 = q
      · simp [he, hqp]
      · simp [he]

end Lookup

namespace FileTree

variable {t t' : FileTree} {p q : Path} {n : Name}

@[simp] theorem node_nil : t.node [] = some (.dir 0o755) := rfl

@[simp] theorem isDir_nil : t.isDir [] = true := rfl

theorem isDir_iff : t.isDir p = true ↔ ∃ mode, t.node p = some (.dir mode) := by
  unfold isDir
  cases hn : t.node p with
  | none => simp
  | some nd => cases nd <;> simp [Node.isDir]

theorem isDir_of_node_concat (h : (t.node (p ++ [n])).isSome = true) : t.isDir p = true := by
  obtain ⟨nd, hnd⟩ := (lookup_isSome_iff (by simp)).mp h
  have hparent := (t.wellFormed.2 _ hnd).2
  rwa [List.dropLast_concat] at hparent

theorem isDir_of_node_append (hq : q ≠ []) (h : (t.node (p ++ q)).isSome = true) : t.isDir p = true := by
  induction q using List.reverseRecOn with
  | nil => exact absurd rfl hq
  | append_singleton q n ih =>
    rw [← List.append_assoc] at h
    have hdir := isDir_of_node_concat h
    by_cases hq' : q = []
    · simpa [hq'] using hdir
    · obtain ⟨mode, hmode⟩ := isDir_iff.mp hdir
      exact ih hq' (by rw [hmode]; rfl)

theorem isDir_dropLast (h : t.isDir p = true) : t.isDir p.dropLast = true := by
  rcases List.eq_nil_or_concat p with rfl | ⟨q, n, rfl⟩
  · rfl
  · rw [List.concat_eq_append] at h ⊢
    obtain ⟨mode, hmode⟩ := isDir_iff.mp h
    rw [List.dropLast_concat]
    exact isDir_of_node_concat (n := n) (by rw [hmode]; rfl)

theorem mem_children : n ∈ t.children p ↔ (t.node (p ++ [n])).isSome = true := by
  rw [show t.node (p ++ [n]) = lookup t.entries (p ++ [n]) from rfl, lookup_isSome_iff (by simp)]
  unfold children
  rw [List.mem_filterMap]
  constructor
  · rintro ⟨e, he, hlast⟩
    split at hlast
    · rename_i hdrop
      have hpath := List.dropLast_append_getLast? _ hlast
      rw [hdrop] at hpath
      exact ⟨e.2, by rw [hpath]; exact he⟩
    · cases hlast
  · rintro ⟨nd, hnd⟩
    exact ⟨(p ++ [n], nd), hnd, by simp⟩

theorem children_nodup (t : FileTree) (p : Path) : (t.children p).Nodup := by
  unfold children
  rw [show t.entries.filterMap (fun e => if e.1.dropLast = p then e.1.getLast? else none) =
      (t.entries.map Prod.fst).filterMap (fun q => if q.dropLast = p then q.getLast? else none) by
    rw [List.filterMap_map]; rfl]
  refine t.wellFormed.1.filterMap fun q q' m hm hm' => ?_
  rw [Option.mem_def] at hm hm'
  split at hm <;> split at hm' <;> try contradiction
  rename_i hdrop hdrop'
  rw [← List.dropLast_append_getLast? _ hm, ← List.dropLast_append_getLast? _ hm', hdrop, hdrop']

theorem ofEntries?_eq {entries : List (Path × Node)} (h : ofEntries? entries = some t) : t.entries = entries := by
  unfold ofEntries? at h
  split at h
  · rw [← Option.some.inj h]
  · cases h

theorem erase_node (hp : p ≠ []) (h : t.erase p = some t') (q : Path) :
    t'.node q = if q = p then none else t.node q := by
  unfold node
  rw [ofEntries?_eq h]
  exact lookup_filter_ne hp

theorem erase_isSome (hp : p ≠ []) (hempty : t.children p = []) : (t.erase p).isSome = true := by
  unfold erase ofEntries?
  rw [dif_pos]
  · rfl
  refine ⟨t.wellFormed.1.sublist (List.filter_sublist.map _), fun e he => ?_⟩
  obtain ⟨hmem, hne⟩ := List.mem_filter.mp he
  obtain ⟨hpath, hparent⟩ := t.wellFormed.2 e hmem
  refine ⟨hpath, ?_⟩
  rw [lookup_filter_ne hp, if_neg]
  · exact hparent
  intro hdrop
  -- `e` would be a child of the directory that has none.
  have hchild : e.1.getLast hpath ∈ t.children p := by
    rw [mem_children, ← hdrop, List.dropLast_append_getLast hpath]
    exact (lookup_isSome_iff hpath).mpr ⟨e.2, hmem⟩
  rw [hempty] at hchild
  cases hchild

theorem exists_depth (t : FileTree) : ∃ d, ∀ q, (t.node q).isSome = true → q.length < d := by
  refine ⟨(t.entries.map fun e => e.1.length).max?.getD 0 + 1, fun q hsome => ?_⟩
  by_cases hq : q = []
  · simp [hq]
  · obtain ⟨nd, hnd⟩ := (lookup_isSome_iff hq).mp hsome
    have hle : q.length ≤ (t.entries.map fun e => e.1.length).max?.getD 0 :=
      List.le_max?_getD_of_mem (List.mem_map.mpr ⟨(q, nd), hnd, rfl⟩)
    omega

def IsReal (t : FileTree) (p : Path) : Prop := ∃ nd, t.node p = some nd ∧ nd.isLink = false

theorem isReal_of_isDir (h : t.isDir p = true) : t.IsReal p := by
  obtain ⟨mode, hmode⟩ := isDir_iff.mp h
  exact ⟨_, hmode, rfl⟩

variable {follow : Path → List String → Option Path}

theorem walkWith_isReal (hfollow : ∀ start cs d, t.isDir start = true → follow start cs = some d → t.IsReal d)
    (cs : List String) : ∀ {cwd d : Path}, t.isDir cwd = true → walkWith t follow cwd cs = some d → t.IsReal d := by
  induction cs with
  | nil =>
    intro cwd d hcwd hwalk
    rw [walkWith, Option.some.injEq] at hwalk
    exact hwalk ▸ isReal_of_isDir hcwd
  | cons c rest ih =>
    intro cwd d hcwd hwalk
    rw [walkWith] at hwalk
    split at hwalk
    · exact ih hcwd hwalk
    · split at hwalk
      · exact ih (isDir_dropLast hcwd) hwalk
      · split at hwalk
        · cases hwalk
        · rename_i n _
          split at hwalk
          · rename_i mode hnode
            exact ih (isDir_iff.mpr ⟨mode, hnode⟩) hwalk
          · rename_i content mode hnode
            split at hwalk
            · rw [← Option.some.inj hwalk]
              exact ⟨_, hnode, rfl⟩
            · cases hwalk
          · rename_i target _
            refine hfollow _ _ _ ?_ hwalk
            split
            · rfl
            · exact hcwd
          · cases hwalk

theorem walk_isReal (links : Nat) : ∀ {cwd d : Path} {cs : List String}, t.isDir cwd = true →
    t.walk links cwd cs = some d → t.IsReal d := by
  induction links with
  | zero =>
    intro cwd d cs hcwd hwalk
    exact walkWith_isReal (fun _ _ _ _ h => by cases h) cs hcwd hwalk
  | succ links ih =>
    intro cwd d cs hcwd hwalk
    exact walkWith_isReal (fun _ _ _ hs h => ih hs h) cs hcwd hwalk

variable {cs : List String} {start d : Path}

theorem resolve_isReal {links : Nat} (h : t.resolve links start cs = some d) : t.IsReal d := by
  unfold resolve at h
  split at h
  · exact walk_isReal links ‹_› h
  · cases h

theorem walkWith_concat {c : String}
    (hc : Name.ofString? c = some n) (hreal : t.IsReal (d ++ [n])) (hd : t.isDir d = true)
    (hfollow : ∀ start cs, follow start cs = some d → follow start (cs ++ [c]) = some (d ++ [n]))
    (cs : List String) : ∀ {cwd : Path}, walkWith t follow cwd cs = some d →
      walkWith t follow cwd (cs ++ [c]) = some (d ++ [n]) := by
  have hname := n.text_ne
  rw [Name.text_of_ofString? hc] at hname
  induction cs with
  | nil =>
    intro cwd hwalk
    rw [walkWith, Option.some.injEq] at hwalk
    subst hwalk
    obtain ⟨nd, hnd, hlink⟩ := hreal
    rw [List.nil_append, walkWith, if_neg (by tauto), if_neg hname.2.2, hc]
    cases nd with
    | link target => cases hlink
    | _ => simp [hnd, walkWith]
  | cons c0 rest ih =>
    intro cwd hwalk
    rw [walkWith] at hwalk
    rw [List.cons_append, walkWith]
    split at hwalk
    · rw [if_pos ‹_›]
      exact ih hwalk
    · rw [if_neg ‹_›]
      split at hwalk
      · rw [if_pos ‹_›]
        exact ih hwalk
      · rw [if_neg ‹_›]
        split at hwalk
        · cases hwalk
        · rename_i m hm
          split at hwalk
          · rename_i mode hnode
            exact ih hwalk
          · rename_i content mode hnode
            split at hwalk
            · -- A file in last place is not the directory `d`.
              rw [← Option.some.inj hwalk] at hd
              simp [isDir, hnode, Node.isDir] at hd
            · cases hwalk
          · rename_i target hnode
            rw [← List.append_assoc]
            exact hfollow _ _ hwalk
          · cases hwalk

theorem walk_concat {c : String} (hc : Name.ofString? c = some n)
    (hreal : t.IsReal (d ++ [n])) (hd : t.isDir d = true) (links : Nat) :
    ∀ {cwd : Path} {cs : List String}, t.walk links cwd cs = some d →
      t.walk links cwd (cs ++ [c]) = some (d ++ [n]) := by
  induction links with
  | zero =>
    intro cwd cs hwalk
    exact walkWith_concat hc hreal hd (fun _ _ h => by cases h) cs hwalk
  | succ links ih =>
    intro cwd cs hwalk
    exact walkWith_concat hc hreal hd (fun _ _ h => ih h) cs hwalk

theorem resolve_of_locate {links : Nat} (h : t.locate links start cs = some p) (hreal : t.IsReal p) :
    t.resolve links start cs = some p := by
  unfold locate at h
  split at h
  · exact h
  · rename_i n hn
    obtain ⟨d, hdir, hif⟩ := Option.bind_eq_some_iff.mp h
    split at hif
    · rename_i hsome
      rw [Option.some.injEq] at hif
      subst hif
      obtain ⟨c, hlast, hc⟩ := Option.bind_eq_some_iff.mp hn
      have hcs := List.dropLast_append_getLast? c hlast
      unfold resolve at hdir ⊢
      split at hdir
      · rw [if_pos ‹_›, ← hcs]
        exact walk_concat hc hreal (isDir_of_node_concat hsome) links hdir
      · cases hdir
    · cases hif

theorem node_isSome_of_locate {links : Nat} (h : t.locate links start cs = some p) : (t.node p).isSome = true := by
  unfold locate at h
  split at h
  · obtain ⟨nd, hnd, -⟩ := resolve_isReal h
    rw [hnd]; rfl
  · obtain ⟨d, -, hif⟩ := Option.bind_eq_some_iff.mp h
    split at hif
    · rw [← Option.some.inj hif]; assumption
    · cases hif

theorem walkWith_names (ns : List Name) : ∀ {cwd : Path}, t.IsReal (cwd ++ ns) →
      walkWith t follow cwd (ns.map Name.text) = some (cwd ++ ns) := by
  induction ns with
  | nil =>
    intro cwd _
    simp [walkWith]
  | cons n rest ih =>
    intro cwd hreal
    have hname := n.text_ne
    rw [List.map_cons, walkWith, if_neg (by tauto), if_neg hname.2.2, Name.ofString?_text]
    have hsplit : cwd ++ n :: rest = (cwd ++ [n]) ++ rest := by simp
    rw [hsplit] at hreal ⊢
    by_cases hrest : rest = []
    · subst hrest
      rw [List.append_nil] at hreal ⊢
      obtain ⟨nd, hnd, hlink⟩ := hreal
      cases nd with
      | link target => cases hlink
      | _ => simp [hnd, walkWith]
    · obtain ⟨nd, hnd, -⟩ := id hreal
      obtain ⟨mode, hmode⟩ := isDir_iff.mp
        (isDir_of_node_append (p := cwd ++ [n]) hrest (by rw [hnd]; rfl))
      simp only [hmode]
      exact ih hreal

theorem walk_names (links : Nat) {cwd : Path} {ns : List Name} (hreal : t.IsReal (cwd ++ ns)) :
    t.walk links cwd (ns.map Name.text) = some (cwd ++ ns) := by
  cases links with
  | zero => exact walkWith_names ns hreal
  | succ links => exact walkWith_names ns hreal

end FileTree

theorem Path.render_ne_nil {p : Path} (hp : p ≠ []) :
    p.render = String.ofList (p.flatMap fun n => '/' :: n.text.toList) := if_neg hp

theorem Path.toList_render_eq_intercalate (p : Path) : (p.flatMap fun n => '/' :: n.text.toList) =
      ['/'].intercalate ([] :: p.map fun n => n.text.toList) := by
  have hgen : ∀ xs : List Char, xs ++ (p.flatMap fun n => '/' :: n.text.toList) =
      ['/'].intercalate (xs :: p.map fun n => n.text.toList) := by
    induction p with
    | nil => intro xs; simp
    | cons n p ih =>
      intro xs
      rw [List.map_cons, List.intercalate_cons_cons, ← ih n.text.toList]
      simp
  exact hgen []

theorem Path.splitChar_render {p : Path} (hp : p ≠ []) :
    splitChar '/' p.render = "" :: p.map Name.text := by
  unfold splitChar
  rw [Path.render_ne_nil hp, String.toList_ofList, Path.toList_render_eq_intercalate, List.splitOn_intercalate]
  · simp
  · intro l hl
    rcases List.mem_cons.mp hl with rfl | hl
    · simp
    · obtain ⟨n, -, rfl⟩ := List.mem_map.mp hl
      exact n.slash_notMem
  · simp

theorem Path.isAbsolute_render (p : Path) : isAbsolute p.render = true := by
  by_cases hp : p = []
  · rw [hp]; rfl
  · rw [Path.render_ne_nil hp, isAbsolute, String.toList_ofList]
    cases p with
    | nil => exact absurd rfl hp
    | cons n p => rfl

theorem Path.render_ne_root {p : Path} (hp : p ≠ []) : p.render ≠ "/" := by
  intro he
  have hlist : (p.flatMap fun n => '/' :: n.text.toList) = ['/'] := by
    rw [← String.toList_ofList (l := p.flatMap _), ← Path.render_ne_nil hp, he]; rfl
  cases p with
  | nil => exact hp rfl
  | cons n p =>
    simp only [List.flatMap_cons, List.cons_append, List.cons.injEq, List.append_eq_nil_iff, true_and] at hlist
    exact n.toList_ne_nil hlist.1

namespace FileTree

variable {t : FileTree} {p : Path}

theorem locate_render (links : Nat) (hp : p ≠ []) (h : (t.node p).isSome = true) :
    t.locate links [] (splitChar '/' p.render) = some p := by
  obtain ⟨q, n, rfl⟩ := List.eq_nil_or_concat p |>.resolve_left hp
  rw [List.concat_eq_append] at h hp ⊢
  have hdir : t.isDir q = true := isDir_of_node_concat h
  have hcs : splitChar '/' (Path.render (q ++ [n])) = ("" :: q.map Name.text) ++ [n.text] := by
    rw [Path.splitChar_render hp]; simp
  have hwalk : t.resolve links [] ("" :: q.map Name.text) = some q := by
    have hreal : t.IsReal ([] ++ q) := isReal_of_isDir hdir
    have hnames := walk_names links hreal
    rw [resolve, isDir_nil, if_pos rfl]
    cases links <;> simpa [walk, walkWith] using hnames
  unfold locate
  rw [hcs, List.getLast?_concat, Option.bind_some, Name.ofString?_text]
  simp only [List.dropLast_concat, hwalk, Option.bind_some, h, if_true]

theorem resolve_render (links : Nat) (hp : p ≠ []) (h : t.IsReal p) :
    t.resolve links [] (splitChar '/' p.render) = some p := by
  obtain ⟨nd, hnd, -⟩ := id h
  exact resolve_of_locate (locate_render links hp (by rw [hnd]; rfl)) h

end FileTree

end Portix.Lib
