import Portix.Sftp.Proofs.TransferProofs

/-!
# Proofs: attempts

What one attempt can leave: it stops before the target is touched, it stops between the removal of
the old target and the renaming, or it replaces the target. From that, what any number of attempts
can leave.
-/

namespace Portix.Sftp

open Lib Domain

structure Stopped (ordered : Prop) (t : Transfer) (w0 : World) (content : List UInt8)
    (r : Except PortixError Unit) (w : World) : Prop where
  error : ∃ e, r = .error e
  target : w.bytes t.target = w0.bytes t.target
  part : w.bytes t.part = w0.bytes t.part ∨
    ∃ kept bytes, Kept w0 t.part content kept ∧ w.bytes t.part = some bytes ∧
      (ordered → bytes <+: assembled kept content)

structure OldRemoved (t : Transfer) (w0 : World) (content : List UInt8)
    (r : Except PortixError Unit) (w : World) : Prop where
  error : ∃ e, r = .error e
  target : w.files t.target = none
  part : ∃ kept, Kept w0 t.part content kept ∧ w.bytes t.part = some (assembled kept content)

/-- The target was replaced. -/
structure Replaced (t : Transfer) (w0 : World) (content : List UInt8) (w : World) : Prop where
  target : ∃ kept, Kept w0 t.part content kept ∧ w.bytes t.target = some (assembled kept content)
  part : w.bytes t.part = none

/-- How an attempt ends; what it leaves of the part file is a prefix where writes land in order (`ordered`). -/
structure AttemptEnd (ordered : Prop) (t : Transfer) (w0 : World) (content : List UInt8)
    (r : Except PortixError Unit) (w : World) : Prop where
  frame : ∀ l, l ≠ t.part → l ≠ t.target → w.bytes l = w0.bytes l
  outcome : Stopped ordered t w0 content r w ∨ OldRemoved t w0 content r w ∨ Replaced t w0 content w

/-- The part file is complete, and the target is not replaced yet. -/
structure Complete (t : Transfer) (w0 : World) (bytes : List UInt8) (w : World) : Prop where
  frame : ∀ l, l ≠ t.part → l ≠ t.target → w.bytes l = w0.bytes l
  part : w.bytes t.part = some bytes

section Run

variable {writer : Writer} {ordered : Prop} {t : Transfer} {w0 w w' : World} {kept content : List UInt8}

theorem bytes_of_files (hfiles : w'.files = w.files) : w'.bytes = w.bytes := by
  unfold World.bytes
  rw [hfiles]

variable {bytes : List UInt8}

theorem Complete.of_bytes (h : Complete t w0 bytes w) (hbytes : w'.bytes = w.bytes) : Complete t w0 bytes w' :=
  ⟨fun l hl hl' => by rw [hbytes, h.frame l hl hl'], by rw [hbytes, h.part]⟩

theorem Complete.removed (h : Complete t w0 (assembled kept content) w)
    (hkept : Kept w0 t.part content kept) (htarget : w.files t.target = none)
    (e : PortixError) : AttemptEnd ordered t w0 content (.error e) w :=
  ⟨h.frame, Or.inr (Or.inl ⟨⟨e, rfl⟩, htarget, kept, hkept, h.part⟩)⟩

theorem Complete.cut (h : Complete t w0 bytes w) (hkept : Kept w0 t.part content kept)
    (hpre : ordered → bytes <+: assembled kept content) (htarget : w.bytes t.target = w0.bytes t.target)
    (e : PortixError) : AttemptEnd ordered t w0 content (.error e) w :=
  ⟨h.frame, Or.inl ⟨⟨e, rfl⟩, htarget, Or.inr ⟨kept, _, hkept, h.part, hpre⟩⟩⟩

theorem Complete.removeOld (h : Complete t w0 bytes w) (hframe : ∀ l, l ≠ t.target → w'.files l = w.files l) :
    Complete t w0 bytes w' := by
  refine ⟨fun l hl hl' => ?_, ?_⟩
  · rw [World.bytes, hframe l hl', ← World.bytes, h.frame l hl hl']
  · rw [World.bytes, hframe _ t.part_ne_target, ← World.bytes, h.part]

theorem Complete.renamed {r : Except String Unit} {e : String → PortixError}
    (h : Complete t w0 (assembled kept content) w) (hkept : Kept w0 t.part content kept)
    (htarget : w.bytes t.target = w0.bytes t.target ∨ w.files t.target = none)
    (hrename : World.handle writer (.rename t.target.1 t.part.2 t.target.2) w = (r, w')) :
    AttemptEnd ordered t w0 content (r.mapError e) w' := by
  rcases World.handle_rename (ne_append_partSuffix _) hrename with
    ⟨hfiles, msg, rfl⟩ | ⟨hpart, hmoved, hframe⟩
  · have hbytes := bytes_of_files hfiles
    rcases htarget with hsame | hnone
    · exact (h.of_bytes hbytes).cut hkept (fun _ => List.prefix_refl _) (by rw [hbytes, hsame]) _
    · exact (h.of_bytes hbytes).removed hkept (by rw [hfiles, hnone]) _
  · refine ⟨fun l hl hl' => ?_, Or.inr (Or.inr ⟨⟨kept, hkept, ?_⟩, hpart⟩)⟩
    · rw [hframe l hl hl', h.frame l hl hl']
    · exact hmoved.trans h.part

theorem FillEnd.stopped {e : PortixError} (h : FillEnd ordered t w0 content (.error e) w) :
    AttemptEnd ordered t w0 content (.error e) w := by
  rcases h with ⟨hfiles, -⟩ | ⟨kept, hkept, hfilled⟩
  · have hbytes := bytes_of_files hfiles
    exact ⟨fun l _ _ => by rw [hbytes], Or.inl ⟨⟨e, rfl⟩, by rw [hbytes], Or.inl (by rw [hbytes])⟩⟩
  · obtain ⟨f, hf, hpre, -⟩ := hfilled.content
    have hframe : ∀ l, l ≠ t.part → w.bytes l = w0.bytes l := by
      intro l hl
      rw [World.bytes, hfilled.frame l hl, World.bytes]
    refine ⟨fun l hl _ => hframe l hl, Or.inl ⟨⟨e, rfl⟩, hframe _ t.part_ne_target.symm, Or.inr ?_⟩⟩
    exact ⟨kept, f.content, hkept, by rw [World.bytes, hf]; rfl, hpre⟩

theorem FillEnd.filled {dst : File} (h : FillEnd ordered t w0 content (.ok dst) w) :
    ∃ kept bytes, Kept w0 t.part content kept ∧ Complete t w0 bytes w ∧
      w.bytes t.target = w0.bytes t.target ∧ (ordered → bytes <+: assembled kept content) ∧
      (dst.failed = false → bytes = assembled kept content) := by
  rcases h with ⟨-, e, he⟩ | ⟨kept, hkept, hfilled⟩
  · cases he
  · obtain ⟨f, hf, hpre, hfull⟩ := hfilled.content
    have hframe : ∀ l, l ≠ t.part → w.bytes l = w0.bytes l := by
      intro l hl
      rw [World.bytes, hfilled.frame l hl, World.bytes]
    exact ⟨kept, f.content, hkept, ⟨fun l hl _ => hframe l hl, by rw [World.bytes, hf]; rfl⟩,
      hframe _ t.part_ne_target.symm, hpre, hfull dst rfl⟩

variable {file : StoredFile}

theorem download_end (hreports : writer.Reports) {remote disk : String} {fuel : Nat}
    (hsource : w.files (.remote, remotePath remote) = some file)
    (hschedule : ordered → ∀ o ∈ w.schedule, writer.InOrder o) :
    Prog.Ends (World.handle writer) (Sftp.download fuel remote disk) w
      (AttemptEnd ordered (.download remote disk) w file.content) := by
  unfold Sftp.download
  refine Prog.Ends.bind (downloadPart_filled hreports hsource hschedule) (fun dst w1 hfill => ?_)
    (fun e w1 hfill => hfill.stopped)
  obtain ⟨kept, bytes, hkept, hcomplete, htarget, hpre, hfull⟩ := hfill.filled
  refine Prog.Ends.step fun r w2 hflush => ?_
  obtain ⟨hfiles, ⟨e, rfl⟩ | ⟨hgood, rfl⟩⟩ := World.handle_flush hflush
  · exact Prog.Ends.done ((hcomplete.of_bytes (bytes_of_files hfiles)).cut hkept hpre
      (by rw [bytes_of_files hfiles, htarget]) _)
  obtain rfl := hfull hgood
  refine Prog.Ends.step fun r w3 hrename => ?_
  exact Prog.Ends.done ((hcomplete.of_bytes (bytes_of_files hfiles)).renamed hkept
    (Or.inl (by rw [bytes_of_files hfiles, htarget])) hrename)

theorem upload_target (disk remote : String) :
    (Transfer.upload disk remote).target = (.remote, remotePath remote) := rfl

theorem upload_part (disk remote : String) :
    (Transfer.upload disk remote).part = (.remote, remotePath remote ++ partSuffix) := rfl

theorem uploadRename_end {disk remote : String} (h : Complete (.upload disk remote) w0 (assembled kept content) w)
    (hkept : Kept w0 (Transfer.upload disk remote).part content kept)
    (htarget : w.bytes (.remote, remotePath remote) = w0.bytes (.remote, remotePath remote) ∨
      w.files (.remote, remotePath remote) = none) :
    Prog.Ends (World.handle writer) (Prog.call (.rename .remote (remotePath remote ++ partSuffix)
        (remotePath remote)) >>= fun r => orSftp r : SftpM Unit) w
      (AttemptEnd ordered (.upload disk remote) w0 content) :=
  Prog.Ends.step fun _ _ hrename => Prog.Ends.done (h.renamed hkept htarget hrename)

theorem keepMode_bytes {path : String} {mode : Option Nat} :
    Prog.Ends (World.handle writer) (keepMode path mode) w fun _ w' => w'.bytes = w.bytes := by
  cases mode with
  | none => exact Prog.Ends.done rfl
  | some mode => exact Prog.Ends.step fun r w1 hset => Prog.Ends.done (World.handle_setMetadata hset)

theorem replaceRemote_end {disk remote : String} (h : Complete (.upload disk remote) w0 (assembled kept content) w)
    (hkept : Kept w0 (Transfer.upload disk remote).part content kept)
    (htarget : w.bytes (.remote, remotePath remote) = w0.bytes (.remote, remotePath remote)) :
    Prog.Ends (World.handle writer) (replaceRemote (remotePath remote)) w
      (AttemptEnd ordered (.upload disk remote) w0 content) := by
  unfold replaceRemote
  refine Prog.Ends.step fun r w1 hmeta => ?_
  have hbytes1 := bytes_of_files (World.handle_metadata hmeta).1
  have h1 := h.of_bytes hbytes1
  have htarget1 := htarget
  rw [← hbytes1] at htarget1
  cases r with
  | error e =>
    exact uploadRename_end h1 hkept (Or.inl htarget1)
  | ok old =>
    refine Prog.Ends.bind keepMode_bytes (fun _ w2 hbytes2 => ?_) (fun e w2 hbytes2 => ?_)
    · have h2 := h1.of_bytes hbytes2
      refine Prog.Ends.step fun r w3 hremove => ?_
      rcases World.handle_removeFile hremove with ⟨hfiles, e, rfl⟩ | ⟨hgone, hframe⟩
      · have hbytes3 := bytes_of_files hfiles
        exact Prog.Ends.done ((h2.of_bytes hbytes3).cut hkept (fun _ => List.prefix_refl _)
          (by rw [hbytes3, hbytes2]; exact htarget1) _)
      · have h3 := h2.removeOld hframe
        cases r with
        | error e => exact Prog.Ends.done (h3.removed hkept hgone _)
        | ok u => exact uploadRename_end h3 hkept (Or.inr hgone)
    · exact (h1.of_bytes hbytes2).cut hkept (fun _ => List.prefix_refl _) (by rw [hbytes2]; exact htarget1) e

theorem upload_end (hreports : writer.Reports) {disk remote : String} {fuel : Nat}
    (hsource : w.files (.disk, disk) = some file) (hschedule : ordered → ∀ o ∈ w.schedule, writer.InOrder o) :
    Prog.Ends (World.handle writer) (Sftp.upload fuel disk remote) w
      (AttemptEnd ordered (.upload disk remote) w file.content) := by
  unfold Sftp.upload
  refine Prog.Ends.bind (uploadPart_filled hreports hsource hschedule) (fun dst w1 hfill => ?_)
    (fun e w1 hfill => hfill.stopped)
  obtain ⟨kept, bytes, hkept, hcomplete, htarget, hpre, hfull⟩ := hfill.filled
  refine Prog.Ends.step fun r w2 hshutdown => ?_
  obtain ⟨hfiles, ⟨e, rfl⟩ | ⟨hgood, rfl⟩⟩ := World.handle_shutdown hshutdown
  · exact Prog.Ends.done ((hcomplete.of_bytes (bytes_of_files hfiles)).cut hkept hpre
      (by rw [bytes_of_files hfiles, htarget]) _)
  obtain rfl := hfull hgood
  exact replaceRemote_end (hcomplete.of_bytes (bytes_of_files hfiles)) hkept
    (by rw [bytes_of_files hfiles]; exact htarget)

theorem run_end (hreports : writer.Reports) {fuel : Nat} (hsource : w.files t.source = some file)
    (hschedule : ordered → ∀ o ∈ w.schedule, writer.InOrder o) :
    Prog.Ends (World.handle writer) (t.run fuel) w (AttemptEnd ordered t w file.content) := by
  cases t with
  | download remote disk => exact download_end hreports hsource hschedule
  | upload disk remote => exact upload_end hreports hsource hschedule

end Run

namespace World

variable {w w' : World}

theorem handle_schedule_le {writer : Writer} {q : Request} {r : Response q} (h : handle writer q w = (r, w')) :
    w'.schedule.length ≤ w.schedule.length :=
  (handle_schedule h).length_le

theorem handle_progress_lt {writer : Writer} {p : TransferProgress}
    (h : handle writer (.progress p) w = (true, w')) :
    w'.schedule.length < w.schedule.length := by
  obtain ⟨hgo, rfl⟩ := Prod.mk.inj h
  unfold next at hgo ⊢
  split
  · rename_i hschedule
    simp [hschedule] at hgo
  · rename_i hschedule
    rw [hschedule]
    simp

end World

theorem copyWithProgress_halts {writer : Writer} (fuel : Nat) : ∀ {w : World} {src dst : File} {done total : Nat},
    w.schedule.length < fuel →
    Prog.Halts (World.handle writer) (copyWithProgress fuel src dst done total) w := by
  induction fuel with
  | zero =>
    intro w src dst done total hlt
    omega
  | succ fuel ih =>
    intro w src dst done total hlt
    rw [copyWithProgress]
    refine Prog.Halts.step fun go w1 hgo => ?_
    cases go with
    | false => exact Prog.Halts.step fun r w2 _ => Prog.Halts.lift fun _ => Prog.Halts.done
    | true =>
      have hlt1 := World.handle_progress_lt hgo
      refine Prog.Halts.step fun r w2 hread => Prog.Halts.lift fun chunk => ?_
      have hle2 := World.handle_schedule_le hread
      dsimp only
      split
      · exact Prog.Halts.done
      · refine Prog.Halts.step fun r w3 hwrite => Prog.Halts.lift fun dst => ih ?_
        have hle3 := World.handle_schedule_le hwrite
        omega

section Halts

variable {writer : Writer} {fuel : Nat} {w : World}

theorem downloadPart_halts {remote disk : String} (hfuel : w.schedule.length < fuel) :
    Prog.Halts (World.handle writer) (downloadPart fuel remote disk) w := by
  refine Prog.Halts.step fun r w1 h1 => Prog.Halts.lift fun attrs => Prog.Halts.step fun existing w2 h2 => ?_
  refine Prog.Halts.step fun r w3 h3 => Prog.Halts.lift fun src => ?_
  refine Prog.Halts.step fun r w4 h4 => Prog.Halts.lift fun src => ?_
  refine Prog.Halts.step fun r w5 h5 => Prog.Halts.lift fun dst => copyWithProgress_halts fuel ?_
  have hle1 := World.handle_schedule_le h1
  have hle2 := World.handle_schedule_le h2
  have hle3 := World.handle_schedule_le h3
  have hle4 := World.handle_schedule_le h4
  have hle5 := World.handle_schedule_le h5
  omega

theorem uploadPart_halts {disk remote : String} (hfuel : w.schedule.length < fuel) :
    Prog.Halts (World.handle writer) (uploadPart fuel disk remote) w := by
  refine Prog.Halts.step fun r w1 h1 => Prog.Halts.lift fun attrs => Prog.Halts.step fun existing w2 h2 => ?_
  refine Prog.Halts.step fun r w3 h3 => Prog.Halts.lift fun dst => ?_
  refine Prog.Halts.step fun r w4 h4 => Prog.Halts.lift fun dst => ?_
  refine Prog.Halts.step fun r w5 h5 => Prog.Halts.lift fun src => ?_
  refine Prog.Halts.step fun r w6 h6 => Prog.Halts.lift fun src => copyWithProgress_halts fuel ?_
  have hle1 := World.handle_schedule_le h1
  have hle2 := World.handle_schedule_le h2
  have hle3 := World.handle_schedule_le h3
  have hle4 := World.handle_schedule_le h4
  have hle5 := World.handle_schedule_le h5
  have hle6 := World.handle_schedule_le h6
  omega

theorem replaceRemote_halts {remote : String} : Prog.Halts (World.handle writer) (replaceRemote remote) w := by
  unfold replaceRemote
  refine Prog.Halts.step fun r w1 _ => ?_
  cases r with
  | error e => exact Prog.Halts.step fun r w2 _ => Prog.Halts.done
  | ok old =>
    refine Prog.Halts.bind ?_ fun _ w2 _ => Prog.Halts.step fun r w3 _ => Prog.Halts.lift fun _ =>
      Prog.Halts.step fun r w4 _ => Prog.Halts.done
    cases hmode : old.permissions with
    | none => exact Prog.Halts.done
    | some mode => exact Prog.Halts.step fun r w2 _ => Prog.Halts.done

theorem run_halts {t : Transfer} (hfuel : w.schedule.length < fuel) :
    Prog.Halts (World.handle writer) (t.run fuel) w := by
  cases t with
  | download remote disk =>
    exact Prog.Halts.bind (downloadPart_halts hfuel) fun dst w1 _ => Prog.Halts.step fun r w2 _ =>
      Prog.Halts.lift fun _ => Prog.Halts.step fun r w3 _ => Prog.Halts.done
  | upload disk remote =>
    exact Prog.Halts.bind (uploadPart_halts hfuel) fun dst w1 _ => Prog.Halts.step fun r w2 _ =>
      Prog.Halts.lift fun _ => replaceRemote_halts

end Halts

/-- Between attempts: the source is there, and the part file is a prefix of it if it is there. -/
structure Resumable (t : Transfer) (content : List UInt8) (w : World) : Prop where
  source : w.bytes t.source = some content
  part : ∀ bytes, w.bytes t.part = some bytes → bytes <+: content

section Attempts

variable {writer : Writer} {t : Transfer} {w0 w w' : World} {content : List UInt8} {r : Except PortixError Unit}
  {fuel : Nat}

theorem Resumable.assembled_eq {kept : List UInt8} (h : Resumable t content w)
    (hkept : Kept w t.part content kept) : assembled kept content = content := by
  rcases hkept with rfl | ⟨hpart, -⟩
  · exact assembled_of_prefix (List.nil_prefix)
  · exact assembled_of_prefix (h.part kept hpart)

theorem Resumable.of_schedule (h : Resumable t content w) (schedule : List Outcome) :
    Resumable t content { w with schedule := schedule } :=
  ⟨h.source, h.part⟩

theorem Resumable.run_end (hreports : writer.Reports) (h : Resumable t content w)
    (hschedule : ∀ o ∈ w.schedule, writer.InOrder o)
    (hrun : (t.run fuel).run (World.handle writer) w = some (r, w')) : AttemptEnd True t w content r w' := by
  obtain ⟨file, hfile, rfl⟩ := Option.map_eq_some_iff.mp h.source
  exact Sftp.run_end hreports hfile (fun _ => hschedule) r w' hrun

theorem Resumable.run (hreports : writer.Reports) (h : Resumable t content w)
    (hschedule : ∀ o ∈ w.schedule, writer.InOrder o)
    (hrun : (t.run fuel).run (World.handle writer) w = some (r, w')) : Resumable t content w' := by
  have hend := h.run_end hreports hschedule hrun
  refine ⟨?_, fun bytes hbytes => ?_⟩
  · rw [hend.frame _ t.source_ne_part t.source_ne_target, h.source]
  · rcases hend.outcome with hstop | hold | hnew
    · rcases hstop.part with hsame | ⟨kept, bytes', hkept, hbytes', hpre⟩
      · exact h.part bytes (by rw [← hsame, hbytes])
      · rw [hbytes, Option.some.injEq] at hbytes'
        have hprefix := hpre trivial
        rwa [h.assembled_eq hkept, ← hbytes'] at hprefix
    · obtain ⟨kept, hkept, hpart⟩ := hold.part
      rw [hbytes, Option.some.injEq] at hpart
      have hwhole : bytes = content := hpart.trans (h.assembled_eq hkept)
      exact hwhole ▸ List.prefix_refl bytes
    · rw [hnew.part] at hbytes
      cases hbytes

theorem Resumable.attempts (hreports : writer.Reports) (h : Resumable t content w0)
    (hbefore : t.Attempts writer writer.InOrder w0 w) : Resumable t content w := by
  induction hbefore with
  | none => exact h
  | more _ hattempt ih =>
    obtain ⟨fuel, schedule, hschedule, hrun⟩ := hattempt
    exact (ih.of_schedule schedule).run hreports hschedule hrun

theorem Resumable.run_ok (hreports : writer.Reports) (h : Resumable t content w)
    (hschedule : ∀ o ∈ w.schedule, writer.InOrder o)
    (hrun : (t.run fuel).run (World.handle writer) w = some (.ok (), w')) :
    w'.bytes t.target = some content ∧ w'.bytes t.part = none := by
  rcases (h.run_end hreports hschedule hrun).outcome with ⟨⟨e, he⟩, -, -⟩ | ⟨⟨e, he⟩, -, -⟩ | hnew
  · cases he
  · cases he
  · obtain ⟨kept, hkept, htarget⟩ := hnew.target
    rw [h.assembled_eq hkept] at htarget
    exact ⟨htarget, hnew.part⟩

theorem run_of_fill_error {e : PortixError} (h : (t.fill fuel).run (World.handle writer) w = some (.error e, w')) :
    (t.run fuel).run (World.handle writer) w = some (.error e, w') := by
  cases t with
  | download remote disk =>
    show (Sftp.download fuel remote disk).run (World.handle writer) w = _
    rw [Sftp.download, Prog.run_bind]
    exact Option.bind_eq_some_iff.mpr ⟨_, h, rfl⟩
  | upload disk remote =>
    show (Sftp.upload fuel disk remote).run (World.handle writer) w = _
    rw [Sftp.upload, Prog.run_bind]
    exact Option.bind_eq_some_iff.mpr ⟨_, h, rfl⟩

theorem target_of_fill_error {e : PortixError} (hreports : writer.Reports)
    (hsource : w.bytes t.source = some content)
    (h : (t.fill fuel).run (World.handle writer) w = some (.error e, w')) :
    w'.files t.target = w.files t.target := by
  obtain ⟨file, hfile, -⟩ := Option.map_eq_some_iff.mp hsource
  have hfill : Prog.Ends (World.handle writer) (t.fill fuel) w (FillEnd False t w file.content) :=
    fill_filled hreports hfile fun hfalse => hfalse.elim
  rcases hfill _ _ h with ⟨hfiles, -⟩ | ⟨kept, -, hfilled⟩
  · rw [hfiles]
  · exact hfilled.frame _ t.part_ne_target.symm

/-- Resumable transfers, as long as writes land in order. -/
theorem resumable_transfer (hreports : writer.Reports) (t : Transfer) : t.Resumes writer writer.InOrder := by
  intro w0 w content hsource hpart hbefore schedule hschedule fuel
  have hstart : Resumable t content w0 := by
    refine ⟨hsource, fun bytes hbytes => ?_⟩
    rw [hpart] at hbytes
    cases hbytes
  have hres := (hstart.attempts hreports hbefore).of_schedule schedule
  refine ⟨fun hfuel => ?_, fun r w' hrun => ⟨?_, fun e w'' hfill => ?_, ?_⟩⟩
  · have hhalts : Prog.Halts (World.handle writer) (t.run fuel) { w with schedule := schedule } := run_halts hfuel
    obtain ⟨⟨r, w'⟩, hrun⟩ := Option.isSome_iff_exists.mp hhalts
    exact ⟨r, w', hrun⟩
  · exact (hres.run hreports hschedule hrun).part
  · rw [run_of_fill_error hfill] at hrun
    cases Option.some.inj hrun
    exact ⟨rfl, target_of_fill_error (w := { w with schedule := schedule }) hreports hres.source hfill⟩
  · rintro rfl
    exact hres.run_ok hreports hschedule hrun

/-- A file of three bytes on one machine, another file where the other machine wants it. -/
def transferWorld (t : Transfer) : World where
  files l := if l = t.source then some ⟨[1, 2, 3], 0o644⟩
    else if l = t.target then some ⟨[9], 0o600⟩ else none
  schedule := []

theorem pipelined_reports : Writer.pipelined.Reports := by
  intro o content file data hanswer
  unfold Writer.pipelined at hanswer ⊢
  cases hfailed : file.failed with
  | true => cases o <;> simp [hfailed] at hanswer
  | false => cases o <;> simp_all

theorem pipelined_inOrder {o : Outcome} (ho : o ≠ .behind) : Writer.pipelined.InOrder o := by
  intro content file data
  unfold Writer.pipelined
  refine ⟨fun hfailed => ?_, fun hfailed => ?_⟩
  · cases o <;> simp_all
  · cases o with
    | behind => exact absurd rfl ho
    | short n => exact ⟨n, by simp [hfailed]⟩
    | late n => exact ⟨n, by simp [hfailed]⟩
    | complete | refused | unanswered | attrs => exact ⟨data.length, by simp [hfailed]⟩

/-- An upload whose second write fails, which is only reported at the end, and then another one. -/
theorem resumable_transfer_upload :
    ∃ w w', (Transfer.upload "g" "f").Attempts .pipelined Writer.pipelined.InOrder (transferWorld (.upload "g" "f")) w ∧
      w.bytes (.remote, "f.portix-part") = some [1] ∧
      ((Transfer.upload "g" "f").run 20).run (World.handle .pipelined)
        { w with schedule := List.replicate 19 .complete } = some (.ok (), w') ∧
      w'.bytes (.remote, "f") = some [1, 2, 3] ∧ w'.bytes (.remote, "f.portix-part") = none := by
  have hruns : (((Transfer.upload "g" "f").run 20).run (World.handle .pipelined)
      { transferWorld (.upload "g" "f") with
        schedule := List.replicate 7 .complete ++ [.short 0, .complete, .complete, .complete, .late 0] ++
          List.replicate 3 .complete }).map (fun r =>
        (r.2.bytes (.remote, "f.portix-part"), (((Transfer.upload "g" "f").run 20).run (World.handle .pipelined)
          { r.2 with schedule := List.replicate 19 .complete }).map Prod.fst)) =
      some (some [1], some (.ok ())) := by decide
  obtain ⟨⟨r, w⟩, hfirst, hsecond⟩ := Option.map_eq_some_iff.mp hruns
  obtain ⟨hpart, hsecond⟩ := Prod.mk.inj hsecond
  obtain ⟨⟨r', w'⟩, hsecond, hr'⟩ := Option.map_eq_some_iff.mp hsecond
  obtain rfl : r' = .ok () := hr'
  have horder : ∀ schedule : List Outcome, .behind ∉ schedule → ∀ o ∈ schedule, Writer.pipelined.InOrder o :=
    fun _ hnot o ho => pipelined_inOrder fun heq => hnot (heq ▸ ho)
  have hbefore := Transfer.Attempts.more (.none _) ⟨20, _, horder _ (by decide), hfirst⟩
  have hends := (resumable_transfer pipelined_reports _ _ _ [1, 2, 3] (by decide) (by decide) hbefore _
    (horder (List.replicate 19 .complete) (by decide)) 20).2 _ _ hsecond
  exact ⟨w, w', hbefore, hpart, hsecond, hends.2.2 rfl⟩

/-- Of an upload in two writes the first fails and the second lands behind it: the part file has as many bytes as the
source, so the next upload takes it for complete. -/
theorem upload_trusts_gap : Writer.pipelined.Reports ∧
    ¬(Transfer.upload "g" "f").Resumes .pipelined fun _ => True := by
  refine ⟨pipelined_reports, fun hresumes => ?_⟩
  have hruns : (((Transfer.upload "g" "f").run 20).run (World.handle .pipelined)
      { transferWorld (.upload "g" "f") with
        schedule := List.replicate 7 .complete ++ [.short 0, .late 0, .complete, .complete, .behind] ++
          List.replicate 3 .complete }).map (fun r =>
        (r.2.bytes (.remote, "f.portix-part"), (((Transfer.upload "g" "f").run 20).run (World.handle .pipelined)
          { r.2 with schedule := List.replicate 19 .complete }).map fun r' =>
            (r'.1, r'.2.bytes (.remote, "f")))) =
      some (some [0, 2, 3], some (.ok (), some [0, 2, 3])) := by decide
  obtain ⟨⟨r, w⟩, hfirst, hsecond⟩ := Option.map_eq_some_iff.mp hruns
  obtain ⟨-, hsecond⟩ := Prod.mk.inj hsecond
  obtain ⟨⟨r', w'⟩, hsecond, hafter⟩ := Option.map_eq_some_iff.mp hsecond
  obtain ⟨rfl, hafter⟩ := Prod.mk.inj hafter
  have hbefore := Transfer.Attempts.more (.none _) ⟨20, _, fun _ _ => trivial, hfirst⟩
  have hends := (hresumes _ _ [1, 2, 3] (by decide) (by decide) hbefore (List.replicate 19 .complete)
    (fun _ _ => trivial) 20).2 _ _ hsecond
  cases hafter.symm.trans (hends.2.2 rfl).1

end Attempts

section Replace

variable {writer : Writer} {w w' : World} {disk remote : String} {old new : List UInt8} {fuel : Nat}
  {schedule : List Outcome} {e : PortixError}

/-- When an upload fails, the remote path still holds the old bytes or it holds the assembled ones;
or the upload failed after the old file was removed and before the part file had its name: then
there is no file, and the part file holds the assembled bytes. -/
theorem upload_error_keeps (hreports : writer.Reports) (hsource : w.bytes (.disk, disk) = some new)
    (hold : w.bytes (.remote, remotePath remote) = some old)
    (hrun : (upload fuel disk remote).run (World.handle writer) { w with schedule := schedule } =
      some (.error e, w')) :
    w'.bytes (.remote, remotePath remote) = some old ∨
      ∃ kept, Kept w (.remote, remotePath remote ++ partSuffix) new kept ∧
        (w'.bytes (.remote, remotePath remote) = some (assembled kept new) ∨
          w'.files (.remote, remotePath remote) = none ∧
            w'.bytes (.remote, remotePath remote ++ partSuffix) = some (assembled kept new)) := by
  obtain ⟨file, hfile, rfl⟩ := Option.map_eq_some_iff.mp hsource
  have hends : Prog.Ends (World.handle writer) (upload fuel disk remote) { w with schedule := schedule }
      (AttemptEnd False (.upload disk remote) { w with schedule := schedule } file.content) :=
    upload_end hreports hfile fun hfalse => hfalse.elim
  rcases (hends _ _ hrun).outcome with hstop | hremoved | hnew
  · have htarget := hstop.target
    rw [upload_target] at htarget
    exact Or.inl (htarget.trans hold)
  · obtain ⟨kept, hkept, hpart⟩ := hremoved.part
    have htarget := hremoved.target
    rw [upload_part] at hkept hpart
    rw [upload_target] at htarget
    exact Or.inr ⟨kept, hkept, Or.inr ⟨htarget, hpart⟩⟩
  · obtain ⟨kept, hkept, htarget⟩ := hnew.target
    rw [upload_part] at hkept
    rw [upload_target] at htarget
    exact Or.inr ⟨kept, hkept, Or.inl htarget⟩

/-- An upload that goes on after a part file, and whose renaming is refused once the old file is gone. -/
theorem upload_error_keeps_part :
    ∃ w e w', w = (transferWorld (.upload "g" "f")).set (.remote, "f.portix-part") (some ⟨[7], 0o644⟩) ∧
      (upload 20 "g" "f").run (World.handle .pipelined) { w with schedule := List.replicate 15 .complete } =
        some (.error e, w') ∧ w'.files (.remote, "f") = none ∧
      (w'.bytes (.remote, remotePath "f") = some [9] ∨
        ∃ kept, Kept w (.remote, remotePath "f" ++ partSuffix) [1, 2, 3] kept ∧
          (w'.bytes (.remote, remotePath "f") = some (assembled kept [1, 2, 3]) ∨
            w'.files (.remote, remotePath "f") = none ∧
              w'.bytes (.remote, remotePath "f" ++ partSuffix) = some (assembled kept [1, 2, 3]))) := by
  have hruns : ((upload 20 "g" "f").run (World.handle .pipelined)
      { (transferWorld (.upload "g" "f")).set (.remote, "f.portix-part") (some ⟨[7], 0o644⟩) with
        schedule := List.replicate 15 .complete }).map (fun r => (r.1, r.2.files (.remote, "f"))) =
      some (.error (.sftp "refused"), none) := by decide
  obtain ⟨⟨r, w'⟩, hrun, hafter⟩ := Option.map_eq_some_iff.mp hruns
  obtain ⟨rfl, hgone⟩ := Prod.mk.inj hafter
  exact ⟨_, _, w', rfl, hrun, hgone, upload_error_keeps pipelined_reports (by decide) (by decide) hrun⟩

/-- The remote path holds one of two contents whenever the upload fails. -/
def KeepsOneOf (w : World) (old new : List UInt8) : Prop :=
  ∀ e w', (upload 20 "g" "f").run (World.handle .pipelined) w = some (.error e, w') →
    w'.bytes (.remote, "f") = some old ∨ w'.bytes (.remote, "f") = some new

theorem not_keepsOneOf {w : World} {old new : List UInt8} (e : PortixError) (after : Option (List UInt8))
    (hrun : ((upload 20 "g" "f").run (World.handle .pipelined) w).map
      (fun r => (r.1, r.2.bytes (.remote, "f"))) = some (.error e, after))
    (hold : after ≠ some old) (hnew : after ≠ some new) : ¬ KeepsOneOf w old new := by
  intro hkeeps
  obtain ⟨⟨r, w'⟩, hr, heq⟩ := Option.map_eq_some_iff.mp hrun
  obtain ⟨rfl, hafter⟩ := Prod.mk.inj heq
  rcases hkeeps _ w' hr with h | h
  · exact hold (hafter.symm.trans h)
  · exact hnew (hafter.symm.trans h)

/-- Two uploads of `[1, 2, 3]` over `[9]` that leave neither at the remote path: one whose renaming
is refused, and one that goes on after another file's part file and whose renaming is not
answered. -/
theorem upload_loses_target :
    (transferWorld (.upload "g" "f")).bytes (.disk, "g") = some [1, 2, 3] ∧
      (transferWorld (.upload "g" "f")).bytes (.remote, "f") = some [9] ∧
      ¬ KeepsOneOf { transferWorld (.upload "g" "f") with
        schedule := List.replicate 15 .complete } [9] [1, 2, 3] ∧
      ¬ KeepsOneOf { (transferWorld (.upload "g" "f")).set (.remote, "f.portix-part")
          (some ⟨[7], 0o644⟩) with
        schedule := List.replicate 15 .complete ++ [.unanswered] } [9] [1, 2, 3] := by
  refine ⟨by decide, by decide, ?_, ?_⟩
  · exact not_keepsOneOf (.sftp "refused") none (by decide) (by decide) (by decide)
  · exact not_keepsOneOf (.sftp "connection lost") (some [7, 2, 3]) (by decide) (by decide) (by decide)

end Replace

end Portix.Sftp
