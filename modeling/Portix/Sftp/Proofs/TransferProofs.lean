import Portix.Sftp.Transfer

/-!
# Proofs: transfers

What one call can do to the files, and then what the copy loop can: as long as nothing has failed, or the
writes land in order, the part file is a prefix of what is being assembled from the kept bytes and the rest
of the source.
-/

namespace Portix.Sftp

open Lib Domain

theorem append_isPrefix {xs ys zs : List UInt8} (hxs : xs <+: zs) (hys : ys <+: zs.drop xs.length) :
    xs ++ ys <+: zs := by
  obtain ⟨rest, rfl⟩ := hxs
  rw [List.drop_left] at hys
  exact (List.prefix_append_right_inj xs).mpr hys

def assembled (kept content : List UInt8) : List UInt8 := kept ++ content.drop kept.length

theorem assembled_of_prefix {kept content : List UInt8} (h : kept <+: content) : assembled kept content = content := by
  obtain ⟨rest, rfl⟩ := h
  simp [assembled]

theorem drop_assembled {kept content : List UInt8} {n : Nat} (hn : kept.length ≤ n) :
    (assembled kept content).drop n = content.drop n := by
  obtain ⟨k, rfl⟩ := Nat.exists_eq_add_of_le hn
  rw [assembled, List.drop_append, List.drop_drop]
  simp

theorem ne_append_partSuffix (path : String) : path ++ partSuffix ≠ path := by
  intro he
  have hlen := congrArg String.length he
  rw [String.length_append] at hlen
  have hpos : 0 < partSuffix.length := by decide
  omega

namespace Transfer

theorem part_ne_target (t : Transfer) : t.part ≠ t.target := by
  intro he
  exact ne_append_partSuffix t.target.2 (congrArg Prod.snd he)

theorem source_ne_part (t : Transfer) : t.source ≠ t.part := by
  cases t <;> simp [source, part, target]

theorem source_ne_target (t : Transfer) : t.source ≠ t.target := by
  cases t <;> simp [source, target]

end Transfer

namespace World

variable {writer : Writer} {w w' w1 : World}

@[simp] theorem next_files (w : World) : w.next.2.files = w.files := by
  unfold next
  cases w.schedule <;> rfl

@[simp] theorem set_files_same (w : World) (l : Location) (f : Option StoredFile) : (w.set l f).files l = f := by
  simp [set]

theorem set_files_ne {l l' : Location} (w : World) (f : Option StoredFile) (h : l' ≠ l) :
    (w.set l f).files l' = w.files l' := by
  simp [set, h]

variable {o : Outcome}

theorem effect_cases {α : Type} {after : Option World} {answer : α}
    {r : Except String α} (h : w.effect o after answer = (r, w')) :
    (w' = w ∧ ∃ e, r = .error e) ∨
      (after = some w' ∧ ((∃ e, r = .error e) ∨ r = .ok answer)) := by
  unfold effect at h
  split at h <;> obtain ⟨rfl, rfl⟩ := Prod.mk.inj h
  · exact Or.inl ⟨rfl, _, rfl⟩
  · exact Or.inl ⟨rfl, _, rfl⟩
  · exact Or.inr ⟨rfl, Or.inl ⟨_, rfl⟩⟩
  · exact Or.inr ⟨rfl, Or.inr rfl⟩

theorem settle_cases {α : Type} {failed : Bool} {answer : α} : (∃ e, settle o failed answer = .error e) ∨
      (failed = false ∧ settle o failed answer = .ok answer) := by
  unfold settle
  split
  · exact Or.inl ⟨_, rfl⟩
  · exact Or.inl ⟨_, rfl⟩
  · cases failed <;> simp

theorem metadata_cases {l : Location} : (∃ e, w.metadata o l = .error e) ∨
      ∃ attrs f, w.metadata o l = .ok attrs ∧ w.files l = some f ∧
        (attrs.size = some f.content.length ∨ l.1 = .remote ∧ attrs.size = none) := by
  unfold metadata
  split
  · exact Or.inl ⟨_, rfl⟩
  · exact Or.inl ⟨_, rfl⟩
  · exact Or.inl ⟨_, rfl⟩
  · rename_i size permissions f hf
    refine Or.inr ?_
    split
    · refine ⟨_, f, rfl, hf, ?_⟩
      cases size <;> simp_all
    · exact ⟨_, f, rfl, hf, Or.inl rfl⟩
  · rename_i f _ _ _ hf
    exact Or.inr ⟨_, f, rfl, hf, Or.inl rfl⟩

variable {file : File}

theorem readChunk_cases {max : Nat} (hmax : 0 < max) : (∃ e, w.readChunk o file max = .error e) ∨
      ∃ f n, w.files file.location = some f ∧ 0 < n ∧ w.readChunk o file max = .ok ((f.content.drop file.pos).take n,
          { file with pos := file.pos + ((f.content.drop file.pos).take n).length }) := by
  unfold readChunk
  split
  · exact Or.inl ⟨_, rfl⟩
  · exact Or.inl ⟨_, rfl⟩
  · exact Or.inl ⟨_, rfl⟩
  · rename_i f _ _ hf
    refine Or.inr ⟨f, readSize _ max, hf, ?_, rfl⟩
    unfold readSize
    split
    · omega
    · exact hmax

variable {r : Except String File} {data : List UInt8}

theorem next_schedule (w : World) : w.next.2.schedule <:+ w.schedule := by
  unfold next
  split
  · exact List.suffix_refl _
  · rename_i hschedule
    rw [hschedule]
    exact List.suffix_cons _ _

theorem next_mem (w : World) : w.next.1 = .refused ∨ w.next.1 ∈ w.schedule := by
  unfold next
  split
  · exact Or.inl rfl
  · rename_i hschedule
    rw [hschedule]
    exact Or.inr List.mem_cons_self

theorem effect_schedule {α : Type} {after : Option World} {answer : α} {r : Except String α}
    (hafter : ∀ w1, after = some w1 → w1.schedule = w.schedule)
    (h : w.effect o after answer = (r, w')) : w'.schedule = w.schedule := by
  rcases effect_cases h with ⟨rfl, -⟩ | ⟨ha, -⟩
  · rfl
  · exact hafter w' ha

theorem writeAll_schedule (h : w.writeAll writer o file data = (r, w')) : w'.schedule = w.schedule := by
  unfold writeAll at h
  split at h <;> obtain ⟨-, rfl⟩ := Prod.mk.inj h <;> rfl

/-- A call takes the next outcome of the schedule, or none is left. -/
theorem handle_schedule {q : Request} {r : Response q} (h : handle writer q w = (r, w')) :
    w'.schedule <:+ w.schedule := by
  have hnext := next_schedule w
  have heffect : ∀ {α : Type} {after : Option World} {answer : α} {r : Except String α},
      (∀ w1, after = some w1 → w1.schedule = w.next.2.schedule) →
      w.next.2.effect w.next.1 after answer = (r, w') → w'.schedule <:+ w.schedule := by
    intro α after answer r hafter he
    rw [effect_schedule hafter he]
    exact hnext
  cases q with
  | openFile side path flags =>
    refine heffect (fun w1 ho => ?_) h
    unfold opened at ho
    split at ho <;> split at ho <;> try split at ho
    all_goals cases ho <;> rfl
  | removeFile path =>
    refine heffect (fun w1 ho => ?_) h
    obtain ⟨f, -, rfl⟩ := Option.map_eq_some_iff.mp ho
    rfl
  | setMetadata path mode =>
    refine heffect (fun w1 ho => ?_) h
    obtain ⟨f, -, rfl⟩ := Option.map_eq_some_iff.mp ho
    rfl
  | rename side source target =>
    refine heffect (fun w1 ho => ?_) h
    unfold renamed at ho
    split at ho <;> try split at ho
    all_goals cases ho
    rfl
  | writeAll file data =>
    rw [writeAll_schedule (h : w.next.2.writeAll writer w.next.1 file data = _)]
    exact hnext
  | canonicalize _ | symlinkMetadata _ | readDir _ | readFile _ | createDir _ | removeDir _ =>
    cases h
    exact List.suffix_refl _
  | _ =>
    cases h
    exact hnext

theorem handle_progress {p : TransferProgress} {r : Bool} (h : handle writer (.progress p) w = (r, w')) :
    w'.files = w.files := by
  cases h
  exact next_files w

theorem handle_flush {r : Except String Unit} (h : handle writer (.flush file) w = (r, w')) :
    w'.files = w.files ∧ ((∃ e, r = .error e) ∨ (file.failed = false ∧ r = .ok ())) := by
  cases h
  exact ⟨next_files w, settle_cases⟩

theorem handle_shutdown {r : Except String Unit} (h : handle writer (.shutdown file) w = (r, w')) :
    w'.files = w.files ∧ ((∃ e, r = .error e) ∨ (file.failed = false ∧ r = .ok ())) := by
  cases h
  exact ⟨next_files w, settle_cases⟩

theorem handle_seek {pos : Nat} (h : handle writer (.seek file pos) w = (r, w')) :
    w'.files = w.files ∧ ((∃ e, r = .error e) ∨ r = .ok { file with pos := pos }) := by
  cases h
  exact ⟨next_files w, settle_cases.imp_right And.right⟩

variable {path : String} {side : Side}

theorem handle_metadata {r : Except String Metadata} (h : handle writer (.metadata side path) w = (r, w')) :
    w'.files = w.files ∧ ((∃ e, r = .error e) ∨ ∃ attrs f, r = .ok attrs ∧ w.files (side, path) = some f ∧
        (attrs.size = some f.content.length ∨ side = .remote ∧ attrs.size = none)) := by
  cases h
  exact ⟨next_files w, metadata_cases⟩

theorem handle_readChunk {max : Nat} {r : Except String (List UInt8 × File)}
    (hmax : 0 < max) (h : handle writer (.readChunk file max) w = (r, w')) :
    w'.files = w.files ∧ ((∃ e, r = .error e) ∨ ∃ f n, w.files file.location = some f ∧ 0 < n ∧
        r = .ok ((f.content.drop file.pos).take n,
          { file with pos := file.pos + ((f.content.drop file.pos).take n).length })) := by
  cases h
  exact ⟨next_files w, readChunk_cases hmax⟩

/-- A write leaves everything as it was, or it leaves its file as the writer has it. -/
theorem handle_writeAll (h : handle writer (.writeAll file data) w = (r, w')) :
    (w'.files = w.files ∧ ∃ e, r = .error e) ∨
      (∀ l, l ≠ file.location → w'.files l = w.files l) ∧ ∃ o ∈ w.schedule, ∃ f, w.files file.location = some f ∧
        w'.files file.location = some { f with content := (writer o f.content file data).content } ∧
        r = (writer o f.content file data).answer.map fun failed =>
          { file with pos := file.pos + data.length, failed := failed } := by
  have hmem := next_mem w
  replace h : w.next.2.writeAll writer w.next.1 file data = (r, w') := h
  unfold writeAll at h
  split at h
  · cases h
    exact Or.inl ⟨next_files w, _, rfl⟩
  · cases h
    exact Or.inl ⟨next_files w, _, rfl⟩
  · rename_i f hf hrefused
    cases h
    rw [next_files] at hf
    refine Or.inr ⟨fun l hl => by rw [set_files_ne _ _ hl, next_files], _, hmem.resolve_left hrefused, f, hf,
      set_files_same _ _ _, rfl⟩

theorem handle_openRead (h : handle writer (.openFile side path {}) w = (r, w')) :
    w'.files = w.files ∧ ((∃ e, r = .error e) ∨
      r = .ok { side := side, path := path, pos := 0, append := false }) := by
  rcases effect_cases h with ⟨rfl, he⟩ | ⟨hopen, hr⟩
  · exact ⟨next_files w, Or.inl he⟩
  · refine ⟨?_, hr⟩
    unfold opened at hopen
    split at hopen
    · rw [← Option.some.inj hopen, next_files]
    · cases hopen

theorem handle_openPart {flags : OpenFlags} (hcreate : flags.create = true) (hexclude : flags.exclude = false)
    (h : handle writer (.openFile side path flags) w = (r, w')) :
    (w'.files = w.files ∧ ∃ e, r = .error e) ∨
      ((∀ l, l ≠ (side, path) → w'.files l = w.files l) ∧
        (∃ f, w'.files (side, path) = some f ∧ f.content =
          if flags.truncate then [] else ((w.files (side, path)).map StoredFile.content).getD []) ∧
        ((∃ e, r = .error e) ∨ r = .ok { side := side, path := path, pos := 0, append := flags.append })) := by
  rcases effect_cases h with ⟨rfl, he⟩ | ⟨hopen, hr⟩
  · exact Or.inl ⟨next_files w, he⟩
  refine Or.inr ?_
  unfold opened at hopen
  rw [next_files, hexclude, hcreate] at hopen
  cases hf : w.files (side, path) with
  | none =>
    simp only [hf, if_true, Option.some.injEq] at hopen
    subst hopen
    refine ⟨fun l hl => by rw [set_files_ne _ _ hl, next_files], ⟨_, set_files_same _ _ _, ?_⟩, hr⟩
    simp
  | some f =>
    cases htruncate : flags.truncate with
    | true =>
      simp only [hf, htruncate, Bool.false_eq_true, if_false, if_true, Option.some.injEq] at hopen
      subst hopen
      exact ⟨fun l hl => by rw [set_files_ne _ _ hl, next_files], ⟨_, set_files_same _ _ _, by simp⟩, hr⟩
    | false =>
      simp only [hf, htruncate, Bool.false_eq_true, if_false, Option.some.injEq] at hopen
      subst hopen
      exact ⟨fun l _ => by rw [next_files], ⟨f, by rw [next_files, hf], by simp⟩, hr⟩

theorem handle_removeFile {r : Except String Unit}
    (h : handle writer (.removeFile path) w = (r, w')) :
    (w'.files = w.files ∧ ∃ e, r = .error e) ∨
      (w'.files (.remote, path) = none ∧ ∀ l, l ≠ (.remote, path) → w'.files l = w.files l) := by
  rcases effect_cases h with ⟨rfl, he⟩ | ⟨hremove, -⟩
  · exact Or.inl ⟨next_files w, he⟩
  · obtain ⟨f, -, rfl⟩ := Option.map_eq_some_iff.mp hremove
    exact Or.inr ⟨set_files_same _ _ _, fun l hl => by rw [set_files_ne _ _ hl, next_files]⟩

theorem handle_setMetadata {mode : Nat} {r : Except String Unit}
    (h : handle writer (.setMetadata path mode) w = (r, w')) : w'.bytes = w.bytes := by
  funext l
  unfold bytes
  rcases effect_cases h with ⟨rfl, -⟩ | ⟨hset, -⟩
  · rw [next_files]
  · obtain ⟨f, hf, rfl⟩ := Option.map_eq_some_iff.mp hset
    by_cases hl : l = (.remote, path)
    · rw [hl, set_files_same, hf]
      rfl
    · rw [set_files_ne _ _ hl, next_files]

theorem handle_rename {source target : String} {r : Except String Unit}
    (hne : source ≠ target) (h : handle writer (.rename side source target) w = (r, w')) :
    (w'.files = w.files ∧ ∃ e, r = .error e) ∨
      (w'.bytes (side, source) = none ∧ w'.bytes (side, target) = w.bytes (side, source) ∧
        ∀ l, l ≠ (side, source) → l ≠ (side, target) → w'.bytes l = w.bytes l) := by
  rcases effect_cases h with ⟨rfl, he⟩ | ⟨hrename, -⟩
  · exact Or.inl ⟨next_files w, he⟩
  refine Or.inr ?_
  unfold renamed at hrename
  rw [next_files] at hrename
  unfold bytes
  split at hrename
  · cases hrename
  · rename_i f hf
    split at hrename
    · cases hrename
    · cases hrename
      have hne' : (side, source) ≠ (side, target) := fun he => hne (congrArg Prod.snd he)
      refine ⟨?_, ?_, fun l hl hl' => ?_⟩
      · rw [set_files_ne _ _ hne', set_files_same]
        rfl
      · rw [set_files_same, hf]
      · rw [set_files_ne _ _ hl', set_files_ne _ _ hl, next_files]

end World

/-- The files during the copy loop: when no write has failed, the part file holds a prefix of what is being
assembled, and the source is read and the part file is written where that prefix ends. When the writes land in
order it holds a prefix all the same. -/
structure Filling (writer : Writer) (ordered : Prop) (w0 : World) (part : Location) (goal : List UInt8)
    (src dst : File) (w : World) : Prop where
  frame : ∀ l, l ≠ part → w.files l = w0.files l
  location : dst.location = part
  schedule : ordered → ∀ o ∈ w.schedule, writer.InOrder o
  content : ∃ f, w.files part = some f ∧ (ordered → f.content <+: goal) ∧ (dst.failed = false →
    f.content <+: goal ∧ src.pos = f.content.length ∧ (dst.append = true ∨ dst.pos = f.content.length))

/-- The files after the copy loop: when it ended well and no write has failed, all is there. -/
structure Filled (ordered : Prop) (w0 : World) (part : Location) (goal : List UInt8) (r : Except PortixError File)
    (w : World) : Prop where
  frame : ∀ l, l ≠ part → w.files l = w0.files l
  content : ∃ f, w.files part = some f ∧ (ordered → f.content <+: goal) ∧
    ∀ dst, r = .ok dst → dst.failed = false → f.content = goal

section Loop

variable {writer : Writer} {ordered : Prop} {w0 w w' : World} {part : Location} {goal : List UInt8} {src dst : File}

theorem Filling.of_files (h : Filling writer ordered w0 part goal src dst w) (hfiles : w'.files = w.files)
    (hschedule : w'.schedule <:+ w.schedule) : Filling writer ordered w0 part goal src dst w' := by
  obtain ⟨f, hf, hrest⟩ := h.content
  refine ⟨fun l hl => ?_, h.location, fun hordered o ho => h.schedule hordered o (hschedule.subset ho), f, ?_, hrest⟩
  · rw [hfiles, h.frame l hl]
  · rw [hfiles, hf]

theorem Filling.stopped (h : Filling writer ordered w0 part goal src dst w) (e : PortixError) :
    Filled ordered w0 part goal (.error e) w := by
  obtain ⟨f, hf, hpre, -⟩ := h.content
  exact ⟨h.frame, f, hf, hpre, by simp⟩

theorem Filling.ended (h : Filling writer ordered w0 part goal src dst w) (hend : goal.drop src.pos = []) :
    Filled ordered w0 part goal (.ok dst) w := by
  obtain ⟨f, hf, hpre, hpos⟩ := h.content
  refine ⟨h.frame, f, hf, hpre, ?_⟩
  rintro dst' ⟨rfl⟩ hfailed
  obtain ⟨hpre', hsrc, -⟩ := hpos hfailed
  rw [List.drop_eq_nil_iff, hsrc] at hend
  exact hpre'.eq_of_length_le hend

theorem writePos_eq {content : List UInt8} (hdst : dst.append = true ∨ dst.pos = content.length) :
    dst.writePos content = content.length := by
  unfold File.writePos
  rcases hdst with happend | hend
  · rw [if_pos happend]
  · rw [hend, ite_self]

/-- One write, by whether it failed: what is read comes next, so what lands in order goes on with the prefix. -/
theorem Filling.written {data : List UInt8} {r : Except String File} (hreports : writer.Reports)
    (h : Filling writer ordered w0 part goal src dst w) (hdata : data <+: goal.drop src.pos)
    (hwrite : World.handle writer (.writeAll dst data) w = (r, w')) :
    (∃ e, r = .error e ∧ ∀ e', Filled ordered w0 part goal (.error e') w') ∨
      ∃ dst', r = .ok dst' ∧ Filling writer ordered w0 part goal { src with pos := src.pos + data.length } dst' w' := by
  have hschedule := World.handle_schedule hwrite
  rcases World.handle_writeAll hwrite with ⟨hfiles, e, rfl⟩ | ⟨hframe, o, ho, f', hf', hafter, hr⟩
  · exact Or.inl ⟨e, rfl, fun e' => (h.of_files hfiles hschedule).stopped e'⟩
  obtain ⟨f, hf, hpre, hpos⟩ := h.content
  rw [h.location] at hframe hf' hafter
  obtain rfl : f = f' := Option.some.inj (hf.symm.trans hf')
  have hframe' : ∀ l, l ≠ part → w'.files l = w0.files l := fun l hl => (hframe l hl).trans (h.frame l hl)
  have hordered : ordered → (writer o f.content dst data).content <+: goal := by
    intro hordered
    have horder := h.schedule hordered o ho f.content dst data
    cases hfailed : dst.failed with
    | true =>
      rw [horder.1 hfailed]
      exact hpre hordered
    | false =>
      obtain ⟨hpre', hsrc, hdst⟩ := hpos hfailed
      obtain ⟨n, hn⟩ := horder.2 hfailed
      rw [hn, writePos_eq hdst, writeAt_length]
      rw [hsrc] at hdata
      exact append_isPrefix hpre' ((List.take_prefix n data).trans hdata)
  cases hanswer : (writer o f.content dst data).answer with
  | error e =>
    rw [hanswer] at hr
    exact Or.inl ⟨e, hr, fun e' => ⟨hframe', _, hafter, hordered, fun _ hok => by cases hok⟩⟩
  | ok failed =>
    rw [hanswer] at hr
    refine Or.inr ⟨_, hr, hframe', h.location, fun hordered o ho => h.schedule hordered o (hschedule.subset ho), _,
      hafter, hordered, ?_⟩
    rintro rfl
    obtain ⟨hgood, hcontent⟩ := hreports o f.content dst data hanswer
    obtain ⟨hpre', hsrc, hdst⟩ := hpos hgood
    rw [hsrc] at hdata
    rw [hcontent, writePos_eq hdst, writeAt_length]
    refine ⟨append_isPrefix hpre' hdata, ?_, ?_⟩
    · rw [List.length_append, hsrc]
    · rw [List.length_append]
      exact hdst.imp_right fun hend => by rw [hend]

/-- The copy loop fills the part file, by induction on its iterations. -/
theorem copyWithProgress_filled (hreports : writer.Reports) {source : Location} {file : StoredFile}
    {kept : List UInt8} {total : Nat} (hne : source ≠ part) (hsource : w0.files source = some file)
    (hgoal : goal = assembled kept file.content) (fuel : Nat) :
    ∀ {w : World} {src dst : File} {done : Nat}, src.location = source → kept.length ≤ src.pos →
      Filling writer ordered w0 part goal src dst w →
      Prog.Ends (World.handle writer) (copyWithProgress fuel src dst done total) w
        (Filled ordered w0 part goal) := by
  induction fuel with
  | zero =>
    intro w src dst done _ _ _
    exact Prog.Ends.more
  | succ fuel ih =>
    intro w src dst done hloc hkept hfill
    rw [copyWithProgress]
    refine Prog.Ends.step fun go w1 hgo => ?_
    have hfill1 := hfill.of_files (World.handle_progress hgo) (World.handle_schedule hgo)
    cases go with
    | false =>
      refine Prog.Ends.step fun r w2 hflush => ?_
      have hschedule := World.handle_schedule hflush
      obtain ⟨hfiles, ⟨e, rfl⟩ | ⟨-, rfl⟩⟩ := World.handle_flush hflush
      · exact Prog.Ends.done ((hfill1.of_files hfiles hschedule).stopped _)
      · exact Prog.Ends.done ((hfill1.of_files hfiles hschedule).stopped _)
    | true =>
      refine Prog.Ends.step fun r w2 hread => ?_
      have hschedule := World.handle_schedule hread
      obtain ⟨hfiles, ⟨e, rfl⟩ | ⟨f, n, hf, hn, rfl⟩⟩ :=
        World.handle_readChunk (by decide) hread
      · exact Prog.Ends.done ((hfill1.of_files hfiles hschedule).stopped _)
      have hfill2 := hfill1.of_files hfiles hschedule
      -- What was read comes next in what is being assembled.
      have hfile : f = file := by
        rw [hloc, hfill1.frame _ hne, hsource] at hf
        exact (Option.some.inj hf).symm
      have hdrop : f.content.drop src.pos = goal.drop src.pos := by
        rw [hfile, hgoal, drop_assembled hkept]
      rw [hdrop]
      generalize hdata : (goal.drop src.pos).take n = data
      have hpre : data <+: goal.drop src.pos := hdata ▸ List.take_prefix n _
      simp only [orIo_ok, Prog.done_ok_bind]
      by_cases hlen : data.length = 0
      · rw [if_pos hlen]
        refine Prog.Ends.done (hfill2.ended ?_)
        rw [List.length_eq_zero_iff] at hlen
        rw [hlen, List.take_eq_nil_iff] at hdata
        exact hdata.resolve_left (by omega)
      · rw [if_neg hlen]
        refine Prog.Ends.step fun r w3 hwrite => ?_
        rcases hfill2.written hreports hpre hwrite with ⟨e, rfl, hstopped⟩ | ⟨dst', rfl, hwritten⟩
        · exact Prog.Ends.done (hstopped _)
        · refine ih hloc ?_ hwritten
          simp only
          omega

end Loop

/-- The part file has been opened, and holds the bytes the attempt goes on after. -/
structure Opened (w0 : World) (part : Location) (kept : List UInt8) (w : World) : Prop where
  frame : ∀ l, l ≠ part → w.files l = w0.files l
  content : ∃ f, w.files part = some f ∧ f.content = kept

/-- What an attempt may keep of the part file it finds: nothing, or all if it is no longer than the source. -/
def Kept (w : World) (part : Location) (content kept : List UInt8) : Prop :=
  kept = [] ∨ w.bytes part = some kept ∧ kept.length ≤ content.length

section Fill

variable {writer : Writer} {ordered : Prop} {w0 w w' : World} {part : Location} {kept content : List UInt8}

theorem Opened.of_files (h : Opened w0 part kept w) (hfiles : w'.files = w.files) : Opened w0 part kept w' := by
  obtain ⟨f, hf, hkept⟩ := h.content
  exact ⟨fun l hl => by rw [hfiles, h.frame l hl], f, by rw [hfiles, hf], hkept⟩

theorem Opened.stopped (h : Opened w0 part kept w) (e : PortixError) :
    Filled ordered w0 part (assembled kept content) (.error e) w := by
  obtain ⟨f, hf, rfl⟩ := h.content
  exact ⟨h.frame, f, hf, fun _ => List.prefix_append _ _, by simp⟩

theorem Opened.filling {src dst : File} (h : Opened w0 part kept w) (hloc : dst.location = part)
    (hschedule : ordered → ∀ o ∈ w.schedule, writer.InOrder o)
    (hsrc : src.pos = kept.length) (hdst : dst.append = true ∨ dst.pos = kept.length) :
    Filling writer ordered w0 part (assembled kept content) src dst w := by
  obtain ⟨f, hf, rfl⟩ := h.content
  exact ⟨h.frame, hloc, hschedule, f, hf, fun _ => List.prefix_append _ _,
    fun _ => ⟨List.prefix_append _ _, hsrc, hdst⟩⟩

theorem kept_of_resumeOffset {total : Nat} (htotal : total ≤ content.length) {side : Side} {path : String}
    {r : Except String Metadata} (h : World.handle writer (.metadata side path) w = (r, w')) :
    ∃ kept, Kept w (side, path) content kept ∧
      resumeOffset (r.toOption.bind Metadata.size) total = kept.length ∧
      kept = if resumeOffset (r.toOption.bind Metadata.size) total = 0 then []
        else ((w.files (side, path)).map StoredFile.content).getD [] := by
  obtain ⟨-, ⟨e, rfl⟩ | ⟨attrs, f, rfl, hf, hsize⟩⟩ := World.handle_metadata h
  · exact ⟨[], Or.inl rfl, rfl, rfl⟩
  by_cases hfits : attrs.size = some f.content.length ∧ f.content.length ≤ total
  · have hoffset : resumeOffset (Except.toOption (.ok attrs : Except String Metadata) |>.bind
        Metadata.size) total = f.content.length := by
      simp [Except.toOption, resumeOffset, hfits.1, hfits.2, Option.filter]
    rw [hoffset, hf]
    refine ⟨f.content, Or.inr ⟨by rw [World.bytes, hf]; rfl, hfits.2.trans htotal⟩, rfl, ?_⟩
    split
    · exact List.length_eq_zero_iff.mp ‹_›
    · rfl
  · have hoffset : resumeOffset (Except.toOption (.ok attrs : Except String Metadata) |>.bind
        Metadata.size) total = 0 := by
      rcases hsize with hsize | ⟨-, hsize⟩
      · have hbig : ¬ f.content.length ≤ total := fun hle => hfits ⟨hsize, hle⟩
        simp [Except.toOption, resumeOffset, hsize, hbig, Option.filter]
      · simp [Except.toOption, resumeOffset, hsize]
    rw [hoffset]
    exact ⟨[], Or.inl rfl, rfl, rfl⟩

theorem size_le {attrs : Metadata} {f : StoredFile} {side : Side}
    (hsize : attrs.size = some f.content.length ∨ side = .remote ∧ attrs.size = none) :
    attrs.size.getD 0 ≤ f.content.length := by
  rcases hsize with hsize | ⟨-, hsize⟩ <;> rw [hsize]
  · exact Nat.le_refl _
  · exact Nat.zero_le _

/-- An attempt looks at the part file, settles on what it keeps, and opens it so that it holds
that. -/
theorem opened_of_metadata {total : Nat} (htotal : total ≤ content.length) {w1 w2 : World} {side : Side} {path : String}
    {existing : Except String Metadata} (hfiles1 : w1.files = w.files)
    (hpart : World.handle writer (.metadata side path) w1 = (existing, w2)) :
    ∃ kept, Kept w (side, path) content kept ∧
      resumeOffset (existing.toOption.bind Metadata.size) total = kept.length ∧
      ∀ {flags : OpenFlags} {w3 w4 : World} {r : Except String File}, flags.create = true →
        flags.exclude = false → flags.truncate = decide (kept.length = 0) →
        w3.files = w.files → World.handle writer (.openFile side path flags) w3 = (r, w4) →
        (w4.files = w.files ∧ ∃ e, r = .error e) ∨ (Opened w (side, path) kept w4 ∧
          ((∃ e, r = .error e) ∨ r = .ok { side := side, path := path, pos := 0, append := flags.append })) := by
  obtain ⟨kept, hkept, hoffset, heq⟩ := kept_of_resumeOffset htotal hpart
  rw [hfiles1] at heq
  have hkept' : Kept w (side, path) content kept := by
    unfold Kept World.bytes at hkept ⊢
    rwa [hfiles1] at hkept
  refine ⟨kept, hkept', hoffset, fun {flags w3 w4 r} hcreate hexclude htruncate hfiles3 hopen => ?_⟩
  rcases World.handle_openPart hcreate hexclude hopen with
    ⟨hsame, he⟩ | ⟨hframe, ⟨f, hf, hcontent⟩, hr⟩
  · exact Or.inl ⟨hsame.trans hfiles3, he⟩
  · refine Or.inr ⟨⟨fun l hl => by rw [hframe l hl, hfiles3], f, hf, ?_⟩, hr⟩
    rw [hcontent, hfiles3, htruncate]
    rw [hoffset] at heq
    simpa using heq.symm

/-- What the first part of an attempt leaves: everything as it was, or the part file filled. -/
def FillEnd (ordered : Prop) (t : Transfer) (w0 : World) (content : List UInt8) (r : Except PortixError File)
    (w : World) : Prop :=
  (w.files = w0.files ∧ ∃ e, r = .error e) ∨
    ∃ kept, Kept w0 t.part content kept ∧ Filled ordered w0 t.part (assembled kept content) r w

variable {fuel : Nat}

theorem downloadPart_filled (hreports : writer.Reports) {remote disk : String} {file : StoredFile}
    (hsource : w.files (.remote, remotePath remote) = some file)
    (hschedule : ordered → ∀ o ∈ w.schedule, writer.InOrder o) :
    Prog.Ends (World.handle writer) (downloadPart fuel remote disk) w
      (FillEnd ordered (.download remote disk) w file.content) := by
  have hne := Transfer.source_ne_part (.download remote disk)
  unfold downloadPart
  refine Prog.Ends.step fun r w1 hmeta => ?_
  have hschedule1 := World.handle_schedule hmeta
  obtain ⟨hfiles1, ⟨e, rfl⟩ | ⟨attrs, f, rfl, hf, hsize⟩⟩ := World.handle_metadata hmeta
  · exact Prog.Ends.done (Or.inl ⟨hfiles1, _, rfl⟩)
  obtain rfl := Option.some.inj (hf.symm.trans hsource)
  refine Prog.Ends.step fun existing w2 hpart => ?_
  have hschedule2 := (World.handle_schedule hpart).trans hschedule1
  have hfiles2 : w2.files = w.files := (World.handle_metadata hpart).1.trans hfiles1
  have hwhere : (.disk, partPath disk) = (Transfer.download remote disk).part := rfl
  obtain ⟨kept, hkept, hoffset, hopens⟩ := opened_of_metadata (size_le hsize) hfiles1 hpart
  rw [hwhere] at hkept hopens
  simp only at hoffset ⊢
  generalize resumeOffset (existing.toOption.bind Metadata.size) (attrs.size.getD 0) = done
    at hoffset ⊢
  subst hoffset
  refine Prog.Ends.step fun r w3 hopen => ?_
  have hschedule3 := (World.handle_schedule hopen).trans hschedule2
  obtain ⟨hfiles3, ⟨e, rfl⟩ | rfl⟩ := World.handle_openRead hopen
  · exact Prog.Ends.done (Or.inl ⟨hfiles3.trans hfiles2, _, rfl⟩)
  refine Prog.Ends.step fun r w4 hseek => ?_
  have hschedule4 := (World.handle_schedule hseek).trans hschedule3
  obtain ⟨hfiles4, ⟨e, rfl⟩ | rfl⟩ := World.handle_seek hseek
  · exact Prog.Ends.done (Or.inl ⟨hfiles4.trans (hfiles3.trans hfiles2), _, rfl⟩)
  have hfiles : w4.files = w.files := hfiles4.trans (hfiles3.trans hfiles2)
  refine Prog.Ends.step fun r w5 hdst => ?_
  have hschedule5 := (World.handle_schedule hdst).trans hschedule4
  rcases hopens rfl rfl rfl hfiles hdst with ⟨hsame, e, rfl⟩ | ⟨hopened, hr⟩
  · exact Prog.Ends.done (Or.inl ⟨hsame, _, rfl⟩)
  refine Prog.Ends.mono (P := Filled ordered w _ (assembled kept f.content)) ?_
    fun r s' h => Or.inr ⟨kept, hkept, h⟩
  rcases hr with ⟨e, rfl⟩ | rfl
  · exact Prog.Ends.done (hopened.stopped _)
  · refine copyWithProgress_filled hreports hne hsource rfl fuel ?_ ?_ ?_
    · rfl
    · exact Nat.le_refl _
    · refine hopened.filling hwhere (fun hordered o ho => hschedule hordered o (hschedule5.subset ho)) rfl ?_
      by_cases hzero : kept.length = 0
      · exact Or.inr hzero.symm
      · exact Or.inl (by simp; omega)

theorem uploadPart_filled (hreports : writer.Reports) {disk remote : String} {file : StoredFile}
    (hsource : w.files (.disk, disk) = some file)
    (hschedule : ordered → ∀ o ∈ w.schedule, writer.InOrder o) :
    Prog.Ends (World.handle writer) (uploadPart fuel disk (remotePath remote)) w
      (FillEnd ordered (.upload disk remote) w file.content) := by
  have hne := Transfer.source_ne_part (.upload disk remote)
  unfold uploadPart
  refine Prog.Ends.step fun r w1 hmeta => ?_
  have hschedule1 := World.handle_schedule hmeta
  obtain ⟨hfiles1, ⟨e, rfl⟩ | ⟨attrs, f, rfl, hf, hsize⟩⟩ := World.handle_metadata hmeta
  · exact Prog.Ends.done (Or.inl ⟨hfiles1, _, rfl⟩)
  obtain rfl := Option.some.inj (hf.symm.trans hsource)
  refine Prog.Ends.step fun existing w2 hpart => ?_
  have hschedule2 := (World.handle_schedule hpart).trans hschedule1
  have hfiles2 : w2.files = w.files := (World.handle_metadata hpart).1.trans hfiles1
  have hwhere : (.remote, remotePath remote ++ partSuffix) = (Transfer.upload disk remote).part :=
    rfl
  obtain ⟨kept, hkept, hoffset, hopens⟩ := opened_of_metadata (size_le hsize) hfiles1 hpart
  rw [hwhere] at hkept hopens
  simp only at hoffset ⊢
  generalize resumeOffset (existing.toOption.bind Metadata.size) (attrs.size.getD 0) = done at hoffset ⊢
  subst hoffset
  refine Prog.Ends.step fun r w3 hdst => ?_
  have hschedule3 := (World.handle_schedule hdst).trans hschedule2
  rcases hopens rfl rfl rfl hfiles2 hdst with ⟨hsame, e, rfl⟩ | ⟨hopened, hr⟩
  · exact Prog.Ends.done (Or.inl ⟨hsame, _, rfl⟩)
  refine Prog.Ends.mono (P := Filled ordered w _ (assembled kept f.content)) ?_
    fun r s' h => Or.inr ⟨kept, hkept, h⟩
  rcases hr with ⟨e, rfl⟩ | rfl
  · exact Prog.Ends.done (hopened.stopped _)
  refine Prog.Ends.step fun r w4 hseek => ?_
  have hschedule4 := (World.handle_schedule hseek).trans hschedule3
  obtain ⟨hfiles4, ⟨e, rfl⟩ | rfl⟩ := World.handle_seek hseek
  · exact Prog.Ends.done ((hopened.of_files hfiles4).stopped _)
  have hopened4 := hopened.of_files hfiles4
  refine Prog.Ends.step fun r w5 hopen => ?_
  have hschedule5 := (World.handle_schedule hopen).trans hschedule4
  obtain ⟨hfiles5, ⟨e, rfl⟩ | rfl⟩ := World.handle_openRead hopen
  · exact Prog.Ends.done ((hopened4.of_files hfiles5).stopped _)
  have hopened5 := hopened4.of_files hfiles5
  refine Prog.Ends.step fun r w6 hseek => ?_
  have hschedule6 := (World.handle_schedule hseek).trans hschedule5
  obtain ⟨hfiles6, ⟨e, rfl⟩ | rfl⟩ := World.handle_seek hseek
  · exact Prog.Ends.done ((hopened5.of_files hfiles6).stopped _)
  refine copyWithProgress_filled hreports hne hsource rfl fuel ?_ ?_ ?_
  · rfl
  · exact Nat.le_refl _
  · exact (hopened5.of_files hfiles6).filling hwhere
      (fun hordered o ho => hschedule hordered o (hschedule6.subset ho)) rfl (Or.inr rfl)

theorem fill_filled (hreports : writer.Reports) {t : Transfer} {file : StoredFile}
    (hsource : w.files t.source = some file) (hschedule : ordered → ∀ o ∈ w.schedule, writer.InOrder o) :
    Prog.Ends (World.handle writer) (t.fill fuel) w (FillEnd ordered t w file.content) := by
  cases t with
  | download remote disk => exact downloadPart_filled hreports hsource hschedule
  | upload disk remote => exact uploadPart_filled hreports hsource hschedule

end Fill

end Portix.Sftp
