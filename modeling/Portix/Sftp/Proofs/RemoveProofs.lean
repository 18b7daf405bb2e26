import Portix.Sftp.Server
import Portix.Lib.Proofs.FileTreeProofs

/-!
# Proofs: removing

`removeResolved`, given the rendered path of an entry, takes out that entry and everything below
it, by recursion over the tree. `remove` hands it the path REALPATH answers, which is the named
entry unless that entry is a link.
-/

namespace Portix.Sftp

open Lib Domain

namespace Server

variable {srv : Server} {p : Path} {n : Name} {nd : Node}

theorem start_render (srv : Server) (p : Path) : srv.start p.render = [] := by
  rw [start, if_pos p.isAbsolute_render]

theorem locate_render (hp : p ≠ []) (hnode : srv.tree.node p = some nd) : srv.locate p.render = some p := by
  unfold locate
  rw [start_render]
  exact FileTree.locate_render _ hp (by rw [hnode]; rfl)

theorem realpath_render (hp : p ≠ []) (hnode : srv.tree.node p = some nd)
    (hlink : nd.isLink = false) : srv.realpath p.render = some p := by
  unfold realpath
  rw [start_render]
  exact FileTree.resolve_render _ hp ⟨nd, hnode, hlink⟩

theorem handle_symlinkMetadata (hp : p ≠ []) (hnode : srv.tree.node p = some nd) :
    handle (.symlinkMetadata p.render) srv = (.ok (attrs nd), srv) := by
  show (srv.stat (srv.locate p.render), srv) = _
  rw [locate_render hp hnode]
  simp [stat, hnode]

theorem handle_removeFile (hp : p ≠ []) (hnode : srv.tree.node p = some nd) : handle (.removeFile p.render) srv =
      srv.changed (if srv.locked p then none else srv.tree.unlink p) := by
  show srv.change (srv.locate p.render) srv.tree.unlink = _
  rw [locate_render hp hnode]
  rfl

theorem handle_removeDir (hp : p ≠ []) (hnode : srv.tree.node p = some nd) : handle (.removeDir p.render) srv =
      srv.changed (if srv.locked p then none else srv.tree.rmdir p) := by
  show srv.change (srv.locate p.render) srv.tree.rmdir = _
  rw [locate_render hp hnode]
  rfl

/-- The entries READDIR lists for the directory `p`, when it is not locked. -/
def dirEntries (srv : Server) (p : Path) : List DirEntry :=
  ⟨".", attrs (.dir 0o755)⟩ :: ⟨"..", attrs (.dir 0o755)⟩ ::
    (srv.tree.children p).map fun n =>
      ⟨n.text, attrs ((srv.tree.node (p ++ [n])).getD (.dir 0o755))⟩

theorem handle_readDir {mode : Nat} (hp : p ≠ []) (hnode : srv.tree.node p = some (.dir mode)) :
    handle (.readDir p.render) srv =
      (if srv.locked p then .error "permission denied" else .ok (srv.dirEntries p), srv) := by
  show (srv.readDir p.render, srv) = _
  unfold readDir
  rw [realpath_render hp hnode rfl]
  have hdir : srv.tree.isDir p = true := FileTree.isDir_iff.mpr ⟨mode, hnode⟩
  cases hlock : srv.locked p <;> simp [hdir, hlock, dirEntries]

end Server

theorem attrs_isDir (nd : Node) : (Server.attrs nd).isDir = nd.isDir := by
  cases nd <;> rfl

theorem endsWith_render_concat (p : Path) (n : Name) : endsWith (Path.render (p ++ [n])) '/' = false := by
  rw [Path.render_ne_nil (by simp), endsWith, String.toList_ofList]
  have hlast : (((p ++ [n]).flatMap fun n => '/' :: n.text.toList)).getLast? = n.text.toList.getLast? := by
    rw [List.flatMap_append]
    simp only [List.flatMap_cons, List.flatMap_nil, List.append_nil]
    rw [← List.singleton_append, ← List.append_assoc, List.getLast?_append_of_ne_nil _ n.toList_ne_nil]
  rw [hlast]
  by_contra hslash
  have hmem : n.text.toList.getLast? = some '/' := by simpa using hslash
  exact n.slash_notMem (List.mem_of_getLast? hmem)

theorem join_render (p : Path) (n : Name) : join p.render n.text = Path.render (p ++ [n]) := by
  rcases List.eq_nil_or_concat p with rfl | ⟨q, m, rfl⟩
  · have hroot : endsWith (Path.render []) '/' = true := by decide
    rw [join, hroot, ← String.toList_inj, List.nil_append, Path.render_ne_nil (p := [n]) (by simp)]
    simp [Path.render]
  · rw [List.concat_eq_append]
    have hend := endsWith_render_concat q m
    rw [join, hend, ← String.toList_inj]
    simp only [Bool.false_eq_true, if_false, String.toList_append]
    rw [Path.render_ne_nil (by simp), Path.render_ne_nil (by simp)]
    simp

/-- `srv'` is `srv` with the entries under the paths of `ps` gone, none of which was locked. -/
structure Removed (srv srv' : Server) (ps : List Path) : Prop where
  same : ∃ t, srv' = { srv with tree := t }
  node : ∀ q, srv'.tree.node q = if ∃ p ∈ ps, p <+: q then none else srv.tree.node q
  unlocked : ∀ p ∈ ps, ∀ q, p <+: q → (srv.tree.node q).isSome = true → srv.locked q = false

theorem Removed.nil (srv : Server) : Removed srv srv [] :=
  ⟨⟨srv.tree, rfl⟩, by simp, by simp⟩

theorem Removed.locked {srv srv' : Server} {ps : List Path} (h : Removed srv srv' ps) :
    srv'.locked = srv.locked := by
  obtain ⟨t, rfl⟩ := h.same
  rfl

theorem Removed.cons {srv srv1 srv2 : Server} {p : Path} {ps : List Path}
    (hfirst : Removed srv srv1 [p]) (hrest : Removed srv1 srv2 ps)
    (hdisjoint : ∀ p' ∈ ps, ∀ q, p' <+: q → ¬ p <+: q) : Removed srv srv2 (p :: ps) := by
  refine ⟨?_, fun q => ?_, fun p' hp' q hq hsome => ?_⟩
  · obtain ⟨t1, rfl⟩ := hfirst.same
    obtain ⟨t2, rfl⟩ := hrest.same
    exact ⟨t2, rfl⟩
  · rw [hrest.node, hfirst.node]
    by_cases hps : ∃ p' ∈ ps, p' <+: q
    · obtain ⟨p', hp', hq⟩ := hps
      rw [if_pos ⟨p', hp', hq⟩, if_pos ⟨p', List.mem_cons_of_mem _ hp', hq⟩]
    · rw [if_neg hps]
      by_cases hpq : p <+: q
      · rw [if_pos ⟨p, by simp, hpq⟩, if_pos ⟨p, by simp, hpq⟩]
      · rw [if_neg (by simpa using hpq), if_neg]
        rintro ⟨p', hp', hq⟩
        rcases List.mem_cons.mp hp' with rfl | hp'
        · exact hpq hq
        · exact hps ⟨p', hp', hq⟩
  · rcases List.mem_cons.mp hp' with rfl | hp'
    · exact hfirst.unlocked p' (by simp) q hq hsome
    · rw [← hfirst.locked]
      refine hrest.unlocked p' hp' q hq ?_
      rw [hfirst.node, if_neg]
      · exact hsome
      · simpa using hdisjoint p' hp' q hq

theorem child_disjoint {p q : Path} {n m : Name} (hne : n ≠ m) (hm : p ++ [m] <+: q) : ¬ p ++ [n] <+: q := by
  intro hn
  have heq : p ++ [n] = p ++ [m] :=
    (List.prefix_of_prefix_length_le hn hm (by simp)).eq_of_length (by simp)
  simp only [List.append_cancel_left_eq, List.cons.injEq, and_true] at heq
  exact hne heq

theorem prefix_iff_child {t : FileTree} {p q : Path} (hsome : (t.node q).isSome = true) :
    p <+: q ↔ q = p ∨ ∃ n ∈ t.children p, p ++ [n] <+: q := by
  constructor
  · rintro ⟨r, rfl⟩
    cases r with
    | nil => exact Or.inl (by simp)
    | cons n r =>
      refine Or.inr ⟨n, FileTree.mem_children.mpr ?_, ⟨r, by simp⟩⟩
      by_cases hr : r = []
      · subst hr; exact hsome
      · have hdir : t.isDir (p ++ [n]) = true :=
          FileTree.isDir_of_node_append hr (by simpa using hsome)
        obtain ⟨mode, hmode⟩ := FileTree.isDir_iff.mp hdir
        rw [hmode]; rfl
  · rintro (rfl | ⟨n, -, hn⟩)
    · exact List.prefix_refl _
    · exact (List.prefix_append p [n]).trans hn

theorem removed_of_erase {srv : Server} {p : Path} {t : FileTree} (hp : p ≠ [])
    (herase : srv.tree.erase p = some t) (hlock : srv.locked p = false)
    (hempty : srv.tree.children p = []) : Removed srv { srv with tree := t } [p] := by
  have hbelow : ∀ q, (srv.tree.node q).isSome = true → p <+: q → q = p := by
    intro q hsome hpq
    rcases (prefix_iff_child hsome).mp hpq with h | ⟨n, hn, -⟩
    · exact h
    · rw [hempty] at hn; cases hn
  refine ⟨⟨t, rfl⟩, fun q => ?_, fun p' hp' q hq hsome => ?_⟩
  · show t.node q = _
    rw [FileTree.erase_node hp herase]
    by_cases hqp : q = p
    · rw [if_pos hqp, if_pos ⟨p, by simp, hqp ▸ List.prefix_refl p⟩]
    · rw [if_neg hqp]
      split
      · rename_i hex
        have hpq : p <+: q := by simpa using hex
        cases hnode : srv.tree.node q with
        | none => rfl
        | some nd => exact absurd (hbelow q (by rw [hnode]; rfl) hpq) hqp
      · rfl
  · have hp'' : p' = p := by simpa using hp'
    subst hp''
    rw [hbelow q hsome hq]
    exact hlock

theorem changed_eq_ok {srv srv' : Server} {t? : Option FileTree} {u : Unit}
    (h : srv.changed t? = (.ok u, srv')) : ∃ t, t? = some t ∧ srv' = { srv with tree := t } := by
  cases t? with
  | none => cases h
  | some t => exact ⟨t, rfl, (Prod.mk.inj h).2.symm⟩

theorem runs_ok_iff {q : Except String Unit × Server} {srv' : Server} :
    (some (q.1.mapError PortixError.sftp, q.2) : Option (Except PortixError Unit × Server)) =
        some (.ok (), srv') ↔ q = (.ok (), srv') := by
  obtain ⟨r, s⟩ := q
  cases r <;> simp [Except.mapError]

section Recursion

variable {srv srv' : Server} {p : Path} {fuel : Nat}

theorem removeResolved_leaf {nd : Node} (hp : p ≠ []) (hnode : srv.tree.node p = some nd) (hnd : nd.isDir = false) :
    (removeResolved (fuel + 1) p.render).run Server.handle srv = some (.ok (), srv') ↔
      ∃ t, srv.locked p = false ∧ srv.tree.erase p = some t ∧ srv' = { srv with tree := t } := by
  have hdir : srv.tree.isDir p = false := by simp [FileTree.isDir, hnode, hnd]
  rw [removeResolved, Prog.call_bind, Prog.run_ask, Server.handle_symlinkMetadata hp hnode]
  simp only [orSftp_ok, Prog.done_ok_bind, attrs_isDir, hnd, Bool.not_false, if_true,
    Prog.call_bind, Prog.run_ask, Server.handle_removeFile hp hnode, FileTree.unlink, hdir]
  rw [orSftp, Prog.lift, Prog.run_done, runs_ok_iff]
  constructor
  · intro hok
    obtain ⟨t, ht, rfl⟩ := changed_eq_ok hok
    cases hlock : srv.locked p with
    | true => simp [hlock] at ht
    | false => exact ⟨t, rfl, by simpa [hlock] using ht, rfl⟩
  · rintro ⟨t, hlock, herase, rfl⟩
    simp [hlock, herase, Server.changed]

theorem removeResolved_dir {mode : Nat} (hp : p ≠ []) (hnode : srv.tree.node p = some (.dir mode)) :
    (removeResolved (fuel + 1) p.render).run Server.handle srv =
      if srv.locked p then some (.error (.sftp "permission denied"), srv)
      else (((srv.dirEntries p).forM (removeChild (removeResolved fuel) p.render)) >>= fun _ =>
        (Prog.call (.removeDir p.render) >>= fun r => orSftp r : SftpM Unit)).run Server.handle srv := by
  rw [removeResolved, Prog.call_bind, Prog.run_ask, Server.handle_symlinkMetadata hp hnode]
  simp only [orSftp_ok, Prog.done_ok_bind, attrs_isDir, Node.isDir, Bool.not_true,
    Bool.false_eq_true, if_false, Prog.call_bind, Prog.run_ask, Server.handle_readDir hp hnode]
  cases srv.locked p with
  | true => rfl
  | false => rfl

theorem forM_dirEntries (removeAt : String → SftpM Unit) : (srv.dirEntries p).forM (removeChild removeAt p.render) =
      (srv.tree.children p).forM fun n => removeAt (Path.render (p ++ [n])) := by
  have hchild : ∀ (n : Name) (attrs : Metadata),
      removeChild removeAt p.render ⟨n.text, attrs⟩ = removeAt (Path.render (p ++ [n])) := by
    intro n attrs
    rw [removeChild, if_pos ⟨n.text_ne.2.1, n.text_ne.2.2⟩, join_render]
  have hlist : ∀ ns : List Name, (ns.map fun n => (⟨n.text,
      Server.attrs ((srv.tree.node (p ++ [n])).getD (.dir 0o755))⟩ : DirEntry)).forM
        (removeChild removeAt p.render) = ns.forM fun n => removeAt (Path.render (p ++ [n])) := by
    intro ns
    induction ns with
    | nil => rfl
    | cons n ns ih => rw [List.map_cons, Prog.forM_cons, Prog.forM_cons, hchild, ih]
  rw [Server.dirEntries, Prog.forM_cons, Prog.forM_cons, hlist]
  simp [removeChild]

theorem forM_removed {ns : List Name}
    (hchild : ∀ n ∈ ns, ∀ {srv srv' : Server}, (srv.tree.node (p ++ [n])).isSome = true →
      (removeResolved fuel (Path.render (p ++ [n]))).run Server.handle srv = some (.ok (), srv') →
      Removed srv srv' [p ++ [n]]) :
    ∀ {srv srv' : Server}, ns.Nodup → (∀ n ∈ ns, (srv.tree.node (p ++ [n])).isSome = true) →
      (ns.forM fun n => removeResolved fuel (Path.render (p ++ [n]))).run Server.handle srv =
        some (.ok (), srv') → Removed srv srv' (ns.map fun n => p ++ [n]) := by
  induction ns with
  | nil =>
    intro srv srv' _ _ hrun
    have hsame : srv = srv' := by simpa using hrun
    exact hsame ▸ Removed.nil srv
  | cons n ns ih =>
    intro srv srv' hnodup hsome hrun
    obtain ⟨hnotin, hnodup⟩ := List.nodup_cons.mp hnodup
    rw [Prog.forM_cons] at hrun
    obtain ⟨u, srv1, hfirst, hrest⟩ := Prog.run_bind_eq_ok hrun
    have hremoved := hchild n (by simp) (hsome n (by simp)) hfirst
    have hdisjoint : ∀ m ∈ ns, ∀ q, p ++ [m] <+: q → ¬ p ++ [n] <+: q := by
      intro m hm q hq
      exact child_disjoint (fun he => hnotin (he ▸ hm)) hq
    refine hremoved.cons (ih (fun m hm => hchild m (List.mem_cons_of_mem _ hm)) hnodup ?_ hrest) ?_
    · intro m hm
      rw [hremoved.node, if_neg]
      · exact hsome m (List.mem_cons_of_mem _ hm)
      · simpa using hdisjoint m hm _ (List.prefix_refl _)
    · intro p' hp' q hq
      obtain ⟨m, hm, rfl⟩ := List.mem_map.mp hp'
      exact hdisjoint m hm q hq

variable {srv1 : Server}

theorem removed_dir {mode : Nat} {t : FileTree} (hp : p ≠ [])
    (hnode : srv.tree.node p = some (.dir mode)) (hlock : srv.locked p = false)
    (hchildren : Removed srv srv1 ((srv.tree.children p).map fun n => p ++ [n]))
    (herase : srv1.tree.erase p = some t) : Removed srv { srv1 with tree := t } [p] := by
  obtain ⟨t1, hsame⟩ := hchildren.same
  have hbelow : ∀ q, (srv.tree.node q).isSome = true →
      (p <+: q ↔ q = p ∨ ∃ p' ∈ (srv.tree.children p).map (fun n => p ++ [n]), p' <+: q) := by
    intro q hsome
    rw [prefix_iff_child hsome]
    simp
  refine ⟨⟨t, by rw [hsame]⟩, fun q => ?_, fun p' hp' q hq hsome => ?_⟩
  · show t.node q = _
    rw [FileTree.erase_node hp herase, hchildren.node]
    cases hq : srv.tree.node q with
    | none => simp
    | some nd =>
      have hiff := hbelow q (by rw [hq]; rfl)
      by_cases hqp : q = p
      · rw [if_pos hqp, if_pos ⟨p, by simp, hiff.mpr (Or.inl hqp)⟩]
      · rw [if_neg hqp]
        by_cases hex : ∃ p' ∈ (srv.tree.children p).map (fun n => p ++ [n]), p' <+: q
        · rw [if_pos hex, if_pos ⟨p, by simp, hiff.mpr (Or.inr hex)⟩]
        · rw [if_neg hex, if_neg]
          rintro ⟨p', hp', hpq⟩
          have hp'' : p' = p := by simpa using hp'
          rcases hiff.mp (hp'' ▸ hpq) with h | h
          · exact hqp h
          · exact hex h
  · have hp'' : p' = p := by simpa using hp'
    subst hp''
    rcases (hbelow q hsome).mp hq with rfl | ⟨p1, hp1, hpq⟩
    · exact hlock
    · exact hchildren.unlocked p1 hp1 q hpq hsome

theorem node_of_removed_children {nd : Node} (hnode : srv.tree.node p = some nd)
    (hchildren : Removed srv srv1 ((srv.tree.children p).map fun n => p ++ [n])) :
    srv1.tree.node p = some nd := by
  rw [hchildren.node, if_neg, hnode]
  rintro ⟨p', hp', hpre⟩
  obtain ⟨n, -, rfl⟩ := List.mem_map.mp hp'
  have hlen := hpre.length_le
  rw [List.length_append, List.length_singleton] at hlen
  omega

theorem removeResolved_removed (fuel : Nat) : ∀ {srv srv' : Server} {p : Path}, p ≠ [] →
    (srv.tree.node p).isSome = true →
    (removeResolved fuel p.render).run Server.handle srv = some (.ok (), srv') →
    Removed srv srv' [p] := by
  induction fuel with
  | zero =>
    intro srv srv' p _ _ hrun
    simp [removeResolved] at hrun
  | succ fuel ih =>
    intro srv srv' p hp hsome hrun
    obtain ⟨nd, hnode⟩ := Option.isSome_iff_exists.mp hsome
    cases hnd : nd.isDir with
    | false =>
      obtain ⟨t, hlock, herase, rfl⟩ := (removeResolved_leaf hp hnode hnd).mp hrun
      refine removed_of_erase hp herase hlock ?_
      by_contra hchildren
      obtain ⟨n, hn⟩ := List.exists_mem_of_ne_nil _ hchildren
      have hdir := FileTree.isDir_of_node_concat (FileTree.mem_children.mp hn)
      simp [FileTree.isDir, hnode, hnd] at hdir
    | true =>
      obtain ⟨mode, rfl⟩ : ∃ mode, nd = .dir mode := by cases nd <;> simp_all [Node.isDir]
      rw [removeResolved_dir hp hnode] at hrun
      cases hlock : srv.locked p with
      | true => simp [hlock] at hrun
      | false =>
        simp only [hlock, Bool.false_eq_true, if_false, forM_dirEntries] at hrun
        obtain ⟨u, srv1, hloop, hlast⟩ := Prog.run_bind_eq_ok hrun
        have hchildren := forM_removed (fun n _ _ _ => ih (by simp))
          (FileTree.children_nodup srv.tree p) (fun n hn => FileTree.mem_children.mp hn) hloop
        have hnode1 := node_of_removed_children hnode hchildren
        rw [Prog.call_bind, Prog.run_ask, Server.handle_removeDir hp hnode1, orSftp, Prog.lift,
          Prog.run_done, runs_ok_iff] at hlast
        obtain ⟨t, ht, rfl⟩ := changed_eq_ok hlast
        have hdir1 : srv1.tree.isDir p = true := FileTree.isDir_iff.mpr ⟨mode, hnode1⟩
        rw [hchildren.locked, hlock] at ht
        have herase : srv1.tree.erase p = some t := by simpa [FileTree.rmdir, hdir1, hp] using ht
        exact removed_dir hp hnode hlock hchildren herase

/-- `fuel` levels are enough for what is below `p`, and none of it is locked. -/
structure Removable (srv : Server) (fuel : Nat) (p : Path) : Prop where
  isSome : (srv.tree.node p).isSome = true
  unlocked : ∀ q, p <+: q → (srv.tree.node q).isSome = true → srv.locked q = false
  depth : ∀ q, p <+: q → (srv.tree.node q).isSome = true → q.length < p.length + fuel

theorem Removable.child {n : Name} (h : Removable srv (fuel + 1) p)
    (hn : n ∈ srv.tree.children p) : Removable srv fuel (p ++ [n]) := by
  refine ⟨FileTree.mem_children.mp hn, fun q hq hsome => ?_, fun q hq hsome => ?_⟩
  · exact h.unlocked q ((List.prefix_append p [n]).trans hq) hsome
  · have hlen := h.depth q ((List.prefix_append p [n]).trans hq) hsome
    simp only [List.length_append, List.length_singleton]
    omega

theorem Removable.after {p' : Path} (h : Removable srv fuel p) (hremoved : Removed srv srv' [p'])
    (hdisjoint : ∀ q, p <+: q → ¬ p' <+: q) : Removable srv' fuel p := by
  have hnode : ∀ q, p <+: q → srv'.tree.node q = srv.tree.node q := by
    intro q hq
    rw [hremoved.node, if_neg]
    simpa using hdisjoint q hq
  refine ⟨?_, fun q hq hsome => ?_, fun q hq hsome => ?_⟩
  · rw [hnode p (List.prefix_refl p)]
    exact h.isSome
  · rw [hremoved.locked]
    exact h.unlocked q hq (hnode q hq ▸ hsome)
  · exact h.depth q hq (hnode q hq ▸ hsome)

theorem forM_succeeds {ns : List Name} (hchild : ∀ {srv : Server} (n : Name), Removable srv fuel (p ++ [n]) →
      ∃ srv', (removeResolved fuel (Path.render (p ++ [n]))).run Server.handle srv = some (.ok (), srv')) :
    ∀ {srv : Server}, ns.Nodup → (∀ n ∈ ns, Removable srv fuel (p ++ [n])) →
      ∃ srv', (ns.forM fun n => removeResolved fuel (Path.render (p ++ [n]))).run
        Server.handle srv = some (.ok (), srv') := by
  induction ns with
  | nil => exact fun _ _ => ⟨_, rfl⟩
  | cons n ns ih =>
    intro srv hnodup hremovable
    obtain ⟨hnotin, hnodup⟩ := List.nodup_cons.mp hnodup
    have hn := hremovable n (by simp)
    obtain ⟨srv1, hfirst⟩ := hchild n hn
    have hremoved := removeResolved_removed fuel (by simp) hn.isSome hfirst
    obtain ⟨srv2, hrest⟩ := ih hnodup fun m hm =>
      (hremovable m (List.mem_cons_of_mem _ hm)).after hremoved fun q hq =>
        child_disjoint (fun he => hnotin (he ▸ hm)) hq
    exact ⟨srv2, by rw [Prog.forM_cons, Prog.run_bind_ok hfirst, hrest]⟩

theorem children_of_removed_children (hchildren : Removed srv srv1 ((srv.tree.children p).map fun n => p ++ [n])) :
    srv1.tree.children p = [] := by
  rw [List.eq_nil_iff_forall_not_mem]
  intro n hn
  have hsome := FileTree.mem_children.mp hn
  rw [hchildren.node] at hsome
  split at hsome
  · cases hsome
  · rename_i hnot
    exact hnot ⟨_, List.mem_map.mpr ⟨n, FileTree.mem_children.mpr hsome, rfl⟩, List.prefix_refl _⟩

theorem removeResolved_succeeds (fuel : Nat) : ∀ {srv : Server} {p : Path}, p ≠ [] → Removable srv fuel p →
    ∃ srv', (removeResolved fuel p.render).run Server.handle srv = some (.ok (), srv') := by
  induction fuel with
  | zero =>
    intro srv p _ h
    have hlen := h.depth p (List.prefix_refl p) h.isSome
    omega
  | succ fuel ih =>
    intro srv p hp h
    obtain ⟨nd, hnode⟩ := Option.isSome_iff_exists.mp h.isSome
    have hlock := h.unlocked p (List.prefix_refl p) h.isSome
    cases hnd : nd.isDir with
    | false =>
      have hchildren : srv.tree.children p = [] := by
        rw [List.eq_nil_iff_forall_not_mem]
        intro n hn
        have hdir := FileTree.isDir_of_node_concat (FileTree.mem_children.mp hn)
        simp [FileTree.isDir, hnode, hnd] at hdir
      obtain ⟨t, ht⟩ := Option.isSome_iff_exists.mp (FileTree.erase_isSome hp hchildren)
      exact ⟨_, (removeResolved_leaf hp hnode hnd).mpr ⟨t, hlock, ht, rfl⟩⟩
    | true =>
      obtain ⟨mode, rfl⟩ : ∃ mode, nd = .dir mode := by cases nd <;> simp_all [Node.isDir]
      obtain ⟨srv1, hloop⟩ := forM_succeeds (fun n hn => ih (by simp) hn)
        (FileTree.children_nodup srv.tree p) (fun n hn => h.child hn)
      have hchildren := forM_removed (fun n _ _ _ => removeResolved_removed fuel (by simp))
        (FileTree.children_nodup srv.tree p) (fun n hn => FileTree.mem_children.mp hn) hloop
      have hnode1 := node_of_removed_children hnode hchildren
      have hdir1 : srv1.tree.isDir p = true := FileTree.isDir_iff.mpr ⟨mode, hnode1⟩
      obtain ⟨t, ht⟩ := Option.isSome_iff_exists.mp
        (FileTree.erase_isSome hp (children_of_removed_children hchildren))
      refine ⟨{ srv1 with tree := t }, ?_⟩
      rw [removeResolved_dir hp hnode]
      simp only [hlock, Bool.false_eq_true, if_false, forM_dirEntries]
      rw [Prog.run_bind_ok hloop, Prog.call_bind, Prog.run_ask, Server.handle_removeDir hp hnode1,
        orSftp, Prog.lift, Prog.run_done, runs_ok_iff, hchildren.locked, hlock]
      simp [FileTree.rmdir, hdir1, hp, ht, Server.changed, hchildren.locked]

end Recursion

section Remove

variable {srv srv' : Server} {path : String} {p d : Path} {fuel : Nat}

theorem remove_run (hreal : srv.realpath (remotePath path) = some d) (hd : d ≠ []) :
    (remove fuel path).run Server.handle srv =
      (removeResolved fuel d.render).run Server.handle srv := by
  rw [remove, resolve]
  simp only [Prog.call_bind, Prog.ask_bind, Prog.run_ask, Server.handle, hreal, orSftp_ok,
    Prog.done_ok_bind, if_neg (Path.render_ne_root hd)]

theorem realpath_of_remove (hrun : (remove fuel path).run Server.handle srv = some (.ok (), srv')) :
    ∃ d, srv.realpath (remotePath path) = some d ∧ d ≠ [] := by
  rw [remove, resolve] at hrun
  simp only [Prog.call_bind, Prog.ask_bind, Prog.run_ask, Server.handle] at hrun
  cases hreal : srv.realpath (remotePath path) with
  | none => simp [hreal] at hrun
  | some d =>
    refine ⟨d, rfl, ?_⟩
    rintro rfl
    simp [hreal, Path.render, Prog.fail] at hrun

theorem realpath_isReal (hreal : srv.realpath path = some d) : srv.tree.IsReal d :=
  FileTree.resolve_isReal hreal

theorem realpath_of_locate (hlocate : srv.locate path = some p) (hp : srv.tree.IsReal p) : srv.realpath path = some p :=
  FileTree.resolve_of_locate hlocate hp

theorem remove_removed (hreal : srv.realpath (remotePath path) = some d) (hd : d ≠ [])
    (hrun : (remove fuel path).run Server.handle srv = some (.ok (), srv')) :
    Removed srv srv' [d] := by
  obtain ⟨nd, hnd, -⟩ := realpath_isReal hreal
  rw [remove_run hreal hd] at hrun
  exact removeResolved_removed fuel hd (by rw [hnd]; rfl) hrun

theorem Names.isSome (h : Names srv path p) : (srv.tree.node p).isSome = true := by
  rcases h with h | h
  · exact FileTree.node_isSome_of_locate h
  · exact FileTree.node_isSome_of_locate h

/-- A removal that goes astray takes an entry outside `p`, or one below `p` and leaves `p`. -/
theorem Astray.not_removesExactly (hsome : (srv.tree.node p).isSome = true) (h : Astray srv path p) :
    ¬ RemovesExactly srv path p := by
  intro hexact
  obtain ⟨d, hreal, hdp, hd, hunlocked⟩ := h
  obtain ⟨nd, hnd, -⟩ := realpath_isReal hreal
  obtain ⟨fuel, hdepth⟩ := srv.tree.exists_depth
  have hremovable : Removable srv fuel d :=
    ⟨by rw [hnd]; rfl, hunlocked, fun q _ hsome => by have := hdepth q hsome; omega⟩
  obtain ⟨srv', hrun⟩ := removeResolved_succeeds fuel hd hremovable
  rw [← remove_run hreal hd] at hrun
  have hremoved := remove_removed hreal hd hrun
  have hprefix : p <+: d := by
    by_contra hnot
    have hkept := hexact fuel srv' hrun d
    rw [if_neg hnot, hremoved.node, if_pos ⟨d, by simp, List.prefix_refl d⟩, hnd] at hkept
    cases hkept
  have hgone := hexact fuel srv' hrun p
  rw [if_pos (List.prefix_refl p), hremoved.node, if_neg] at hgone
  · rw [hgone] at hsome
    cases hsome
  · intro hex
    have hback : d <+: p := by simpa using hex
    exact hdp (hback.eq_of_length (le_antisymm hback.length_le hprefix.length_le))

/-- A removal deletes exactly what was named if and only if the path does not lead to another entry,
which would go in its place: by a link that is followed or by the white space that is trimmed. -/
theorem removes_exactly_iff (hnames : Names srv path p) : RemovesExactly srv path p ↔ ¬ Astray srv path p := by
  constructor
  · exact fun hexact hastray => hastray.not_removesExactly hnames.isSome hexact
  · intro hnot fuel srv' hrun q
    obtain ⟨d, hreal, hd⟩ := realpath_of_remove hrun
    have hremoved := remove_removed hreal hd hrun
    have hdp : d = p := by
      by_contra hdp
      exact hnot ⟨d, hreal, hdp, hd, hremoved.unlocked d (by simp)⟩
    subst hdp
    rw [hremoved.node]
    simp

/-- Where `remote_path` keeps the name, only a link leads astray. -/
theorem astray_iff_link (hlocate : srv.locate (remotePath path) = some p) :
    Astray srv path p ↔ (∃ target, srv.tree.node p = some (.link target)) ∧
      ∃ d, srv.realpath (remotePath path) = some d ∧ d ≠ [] ∧
        ∀ q, d <+: q → (srv.tree.node q).isSome = true → srv.locked q = false := by
  constructor
  · rintro ⟨d, hreal, hdp, hd, hunlocked⟩
    refine ⟨?_, d, hreal, hd, hunlocked⟩
    obtain ⟨nd, hnd⟩ := Option.isSome_iff_exists.mp (FileTree.node_isSome_of_locate hlocate)
    cases hlink : nd.isLink with
    | false =>
      rw [realpath_of_locate hlocate ⟨nd, hnd, hlink⟩] at hreal
      exact absurd (Option.some.inj hreal).symm hdp
    | true =>
      cases nd with
      | link target => exact ⟨target, hnd⟩
      | file content mode => cases hlink
      | dir mode => cases hlink
  · rintro ⟨⟨target, hlink⟩, d, hreal, hd, hunlocked⟩
    refine ⟨d, hreal, ?_, hd, hunlocked⟩
    rintro rfl
    obtain ⟨nd, hnd, hndlink⟩ := realpath_isReal hreal
    rw [hlink] at hnd
    cases hnd
    cases hndlink

/-- The folder `/srv/data` with the files `a` and `a `, and the link `/srv/latest` to it. -/
def linkServer : Server where
  tree := ⟨[([⟨"srv", by decide⟩], .dir 0o755),
    ([⟨"srv", by decide⟩, ⟨"data", by decide⟩], .dir 0o755),
    ([⟨"srv", by decide⟩, ⟨"data", by decide⟩, ⟨"a", by decide⟩], .file [1] 0o644),
    ([⟨"srv", by decide⟩, ⟨"data", by decide⟩, ⟨"a ", by decide⟩], .file [2] 0o644),
    ([⟨"srv", by decide⟩, ⟨"latest", by decide⟩], .link "data")], by decide⟩
  home := []
  maxLinks := 40
  locked := fun _ => false

/-- The folder goes with what is in it and with the link to a folder. -/
theorem removes_exactly_folder : RemovesExactly linkServer "/srv" [⟨"srv", by decide⟩] := by
  have hpath : "/srv" = Path.render [⟨"srv", by decide⟩] := by decide
  have hremote : remotePath "/srv" = "/srv" := by decide
  have hnode : linkServer.tree.node [⟨"srv", by decide⟩] = some (.dir 0o755) := by decide
  have hlocate : linkServer.locate "/srv" = some [⟨"srv", by decide⟩] := by
    rw [hpath]
    exact Server.locate_render (by simp) hnode
  refine (removes_exactly_iff (.inl hlocate)).mpr ?_
  rintro ⟨d, hreal, hdp, -⟩
  rw [hremote, hpath, Server.realpath_render (by simp) hnode rfl] at hreal
  exact hdp (Option.some.inj hreal).symm

/-- Removing the link empties and removes the folder and leaves the link; removing the file `a `
removes `a` and leaves `a `. -/
theorem removes_other_entry :
    (Names linkServer "/srv/latest" [⟨"srv", by decide⟩, ⟨"latest", by decide⟩] ∧
      ¬ RemovesExactly linkServer "/srv/latest" [⟨"srv", by decide⟩, ⟨"latest", by decide⟩]) ∧
    Names linkServer "/srv/data/a " [⟨"srv", by decide⟩, ⟨"data", by decide⟩, ⟨"a ", by decide⟩] ∧
      ¬ RemovesExactly linkServer "/srv/data/a " [⟨"srv", by decide⟩, ⟨"data", by decide⟩, ⟨"a ", by decide⟩] := by
  have hlink : linkServer.locate "/srv/latest" = some [⟨"srv", by decide⟩, ⟨"latest", by decide⟩] := by
    decide +kernel
  have hspace : linkServer.locate "/srv/data/a " =
      some [⟨"srv", by decide⟩, ⟨"data", by decide⟩, ⟨"a ", by decide⟩] := by
    decide +kernel
  have hfollowed : linkServer.realpath (remotePath "/srv/latest") =
      some [⟨"srv", by decide⟩, ⟨"data", by decide⟩] := by
    decide +kernel
  have htrimmed : linkServer.realpath (remotePath "/srv/data/a ") =
      some [⟨"srv", by decide⟩, ⟨"data", by decide⟩, ⟨"a", by decide⟩] := by
    decide +kernel
  refine ⟨⟨.inl hlink, ?_⟩, .inl hspace, ?_⟩
  · exact Astray.not_removesExactly (FileTree.node_isSome_of_locate hlink)
      ⟨_, hfollowed, by decide, by decide, fun _ _ _ => rfl⟩
  · exact Astray.not_removesExactly (FileTree.node_isSome_of_locate hspace)
      ⟨_, htrimmed, by decide, by decide, fun _ _ _ => rfl⟩

end Remove

end Portix.Sftp
