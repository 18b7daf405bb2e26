import Portix.Ssh.Exec

/-!
# Proofs: running a command

The loop reads the messages up to the first EOF or CLOSE; what it misses by that, and by not
looking at the answer to its request, is when the outcome of a command is not reported.
-/

namespace Portix.Ssh

open Lib Domain

variable {command : String} {input : Option String} {script : ExecScript}
  {messages : List ChannelMsg}

def seen (messages : List ChannelMsg) : List ChannelMsg := messages.takeWhile fun m => !m.isEnd

def lastStatus (messages : List ChannelMsg) (status : Option UInt32) : Option UInt32 :=
  (messages.filterMap ChannelMsg.status?).getLast?.or status

@[simp] theorem seen_nil : seen [] = [] := rfl

variable {m : ChannelMsg}

theorem seen_cons_of_isEnd (hend : m.isEnd = true) : seen (m :: messages) = [] := by
  simp [seen, hend]

theorem seen_cons_of_not_isEnd (hend : m.isEnd = false) : seen (m :: messages) = m :: seen messages := by
  simp [seen, hend]

theorem lastStatus_nil (status : Option UInt32) : lastStatus [] status = status := rfl

theorem lastStatus_cons_none (hstatus : m.status? = none)
    (status : Option UInt32) : lastStatus (m :: messages) status = lastStatus messages status := by
  simp [lastStatus, hstatus]

variable {s : UInt32}

theorem lastStatus_cons_some (hstatus : m.status? = some s) (status : Option UInt32) :
    lastStatus (m :: messages) status = lastStatus messages (some s) := by
  rw [lastStatus, List.filterMap_cons_some hstatus, List.getLast?_cons, lastStatus]
  cases (messages.filterMap ChannelMsg.status?).getLast? <;> rfl

theorem waitLoop_of_isEnd (ending : Ending) (hend : m.isEnd = true) (output : List UInt8) (status : Option UInt32) :
    waitLoop ending (m :: messages) output status = some (output, status) := by
  cases m with
  | eof => rfl
  | close => rfl
  | _ => cases hend

theorem waitLoop_of_not_isEnd (ending : Ending) (hend : m.isEnd = false)
    (output : List UInt8) (status : Option UInt32) :
    waitLoop ending (m :: messages) output status =
      waitLoop ending messages (output ++ m.bytes) (m.status?.or status) := by
  cases m with
  | eof => cases hend
  | close => cases hend
  | data => rfl
  | extendedData => rfl
  | _ => simp [waitLoop, ChannelMsg.bytes, ChannelMsg.status?]

/-- The loop collects what it looks at, and returns when it meets an end or the connection is
lost. -/
theorem waitLoop_eq (ending : Ending) (messages : List ChannelMsg) (output : List UInt8)
    (status : Option UInt32) : waitLoop ending messages output status =
      if messages.any ChannelMsg.isEnd = true ∨ ending = .lost then
        some (output ++ (seen messages).flatMap ChannelMsg.bytes, lastStatus (seen messages) status)
      else none := by
  induction messages generalizing output status with
  | nil => simp [waitLoop, lastStatus]
  | cons m rest ih =>
    cases hend : m.isEnd with
    | true =>
      rw [waitLoop_of_isEnd ending hend, seen_cons_of_isEnd hend, lastStatus_nil]
      simp [hend]
    | false =>
      have hlast : lastStatus (m :: seen rest) status = lastStatus (seen rest) (m.status?.or status) := by
        cases hstatus : m.status? with
        | none => exact lastStatus_cons_none hstatus status
        | some s => exact lastStatus_cons_some hstatus status
      rw [waitLoop_of_not_isEnd ending hend, ih, seen_cons_of_not_isEnd hend, hlast]
      simp [hend]

theorem mem_of_mem_seen (hm : m ∈ seen messages) : m ∈ messages :=
  (List.takeWhile_prefix _).subset hm

theorem lastStatus_mem (hlast : lastStatus messages none = some s) : .exitStatus s ∈ messages := by
  rw [lastStatus, Option.or_none] at hlast
  obtain ⟨m, hm, hstatus⟩ := List.mem_filterMap.mp (List.mem_of_getLast? hlast)
  cases m <;> simp only [ChannelMsg.status?, Option.some.injEq, reduceCtorEq] at hstatus
  rwa [← hstatus]

theorem seen_split (messages : List ChannelMsg) : (seen messages = messages ∧ messages.any ChannelMsg.isEnd = false) ∨
      ∃ e after, e.isEnd = true ∧ messages = seen messages ++ e :: after := by
  induction messages with
  | nil => exact Or.inl ⟨rfl, rfl⟩
  | cons m rest ih =>
    cases hend : m.isEnd with
    | true => exact Or.inr ⟨m, rest, hend, by rw [seen_cons_of_isEnd hend, List.nil_append]⟩
    | false =>
      rw [seen_cons_of_not_isEnd hend]
      rcases ih with ⟨hseen, hany⟩ | ⟨e, after, hisEnd, hsplit⟩
      · exact Or.inl ⟨by rw [hseen], by rw [List.any_cons, hend, hany]; rfl⟩
      · refine Or.inr ⟨e, after, hisEnd, ?_⟩
        rw [List.cons_append, ← hsplit]

theorem lastStatus_zero (hseen : ¬ ExitsNonZero (seen messages)) :
    ∀ s, lastStatus (seen messages) none = some s → s = 0 := by
  intro s hs
  by_contra hne
  exact hseen ⟨s, lastStatus_mem hs, hne⟩

theorem ChannelMsg.bytes_of_not_isData (hdata : m.isData = false) : m.bytes = [] := by
  cases m with
  | data => cases hdata
  | extendedData => cases hdata
  | _ => rfl

theorem ChannelMsg.bytes_of_isEnd (hend : m.isEnd = true) : m.bytes = [] := by
  cases m with
  | eof => rfl
  | close => rfl
  | _ => cases hend

namespace Permitted

variable (hpermitted : Permitted messages)
include hpermitted

theorem flatMap_seen : (seen messages).flatMap ChannelMsg.bytes = messages.flatMap ChannelMsg.bytes := by
  rcases seen_split messages with ⟨hseen, -⟩ | ⟨e, after, hend, hsplit⟩
  · rw [hseen]
  have hnoData : ∀ m ∈ after, m.isData = false := by
    intro m hm
    have horder := hpermitted.order
    rw [hsplit] at horder
    have hpair := List.rel_of_pairwise_cons (List.pairwise_append.mp horder).2.1 hm
    cases e with
    | eof => exact hpair.2 rfl
    | close => exact absurd rfl hpair.1
    | _ => cases hend
  have hafter : after.flatMap ChannelMsg.bytes = [] := by
    exact List.flatMap_eq_nil_iff.mpr fun m hm => ChannelMsg.bytes_of_not_isData (hnoData m hm)
  have hbytes : e.bytes = [] := ChannelMsg.bytes_of_isEnd hend
  have heq := congrArg (List.flatMap ChannelMsg.bytes) hsplit
  rw [List.flatMap_append, List.flatMap_cons, hbytes, hafter] at heq
  simpa using heq.symm

theorem lastStatus_eq (hs : .exitStatus s ∈ seen messages) : lastStatus (seen messages) none = some s := by
  have hmem : s ∈ (seen messages).filterMap ChannelMsg.status? :=
    List.mem_filterMap.mpr ⟨_, hs, rfl⟩
  have hlen : ((seen messages).filterMap ChannelMsg.status?).length ≤ 1 :=
    Nat.le_trans ((List.takeWhile_sublist _).filterMap _).length_le hpermitted.status
  rw [lastStatus, Option.or_none]
  generalize hstatuses : (seen messages).filterMap ChannelMsg.status? = statuses at hmem hlen
  match statuses, hlen with
  | [s'], _ => simpa using (List.mem_singleton.mp hmem).symm

theorem lastStatus_refused (hfailure : .failure ∈ messages) : lastStatus (seen messages) none = none := by
  cases hlast : lastStatus (seen messages) none with
  | none => rfl
  | some s =>
    have hstatus := (hpermitted.refused hfailure _ (mem_of_mem_seen (lastStatus_mem hlast))).2
    simp [ChannelMsg.status?] at hstatus

end Permitted

theorem execResult_error (output : List UInt8) (hs : s ≠ 0) : ∃ e, execResult output (some s) = .error e := by
  simp [execResult, hs]

theorem execResult_ok {output : List UInt8} {status : Option UInt32} (hstatus : ∀ s, status = some s → s = 0) :
    execResult output status = .ok (fromUtf8Lossy output) := by
  cases status with
  | none => rfl
  | some s => simp [execResult, hstatus s rfl]

theorem runExec_sendFails {e : PortixError} (he : (sendAll (execSends command input script)).2 = some (.error e)) :
    runExec command input script =
      ((sendAll (execSends command input script)).1, some (.error e)) := by
  rw [runExec]
  generalize sendAll (execSends command input script) = sends at he ⊢
  obtain ⟨sent, result⟩ := sends
  cases he
  rfl

theorem runExec_sendHangs (hhangs : SendHangs command input script) : (runExec command input script).2 = none := by
  unfold SendHangs at hhangs
  rw [runExec]
  generalize sendAll (execSends command input script) = sends at hhangs
  obtain ⟨sent, result⟩ := sends
  cases hhangs
  rfl

theorem runExec_snd (hsent : ¬ SendFails command input script) (hends : ¬ SendHangs command input script) :
    (runExec command input script).2 =
      if script.messages.any ChannelMsg.isEnd = true ∨ script.ending = .lost then
        some (execResult ((seen script.messages).flatMap ChannelMsg.bytes)
          (lastStatus (seen script.messages) none))
      else none := by
  have hok : (sendAll (execSends command input script)).2 = some (.ok ()) := by
    cases hsend : (sendAll (execSends command input script)).2 with
    | none => exact absurd hsend hends
    | some result =>
      cases result with
      | ok u => rfl
      | error e => exact absurd ⟨e, hsend⟩ hsent
  rw [runExec]
  generalize sendAll (execSends command input script) = sends at hok
  obtain ⟨sent, result⟩ := sends
  cases hok
  simp only [waitLoop_eq, List.nil_append]
  split_ifs <;> rfl

theorem isEnd_of_close (hclose : .close ∈ messages) : messages.any ChannelMsg.isEnd = true :=
  List.any_eq_true.mpr ⟨_, hclose, rfl⟩

theorem stops_of_answered (hsent : ¬ SendFails command input script)
    (hfailure : .failure ∉ script.messages) (hanswered : Answered command input script) :
    script.messages.any ChannelMsg.isEnd = true ∨ script.ending = .lost := by
  rcases hanswered with hsend | hrefused | hclose | hlost
  · exact absurd hsend hsent
  · exact absurd hrefused hfailure
  · exact Or.inl (isEnd_of_close hclose)
  · exact Or.inr hlost

theorem reportsOutcome_of_sendFails (hsend : SendFails command input script) : ReportsOutcome command input script := by
  obtain ⟨e, he⟩ := hsend
  have hresult := congrArg Prod.snd (runExec_sendFails he)
  refine ⟨fun _ => ?_, fun r hr => ⟨fun _ => ⟨e, ?_⟩, fun hnot => ?_⟩⟩
  · rw [hresult]
    exact Option.some_ne_none _
  · exact (Option.some.inj (hresult.symm.trans hr)).symm
  · exact absurd (Or.inl ⟨e, he⟩) hnot

/-- While something waits to be sent, nothing must have come of the command. -/
theorem reportsOutcome_of_sendHangs (hhangs : SendHangs command input script) :
    ReportsOutcome command input script ↔
      .failure ∉ script.messages ∧ .close ∉ script.messages ∧ script.ending ≠ .lost := by
  have hnone := runExec_sendHangs hhangs
  have hsent : ¬ SendFails command input script := by
    rintro ⟨e, he⟩
    cases hhangs.symm.trans he
  constructor
  · intro hreports
    have hnot : ¬ Answered command input script := fun hanswered => hreports.1 hanswered hnone
    exact ⟨fun h => hnot (.inr (.inl h)), fun h => hnot (.inr (.inr (.inl h))), fun h => hnot (.inr (.inr (.inr h)))⟩
  · rintro ⟨hfailure, hclose, hlost⟩
    refine ⟨?_, fun r hr => by cases hnone.symm.trans hr⟩
    rintro (h | h | h | h)
    · exact absurd h hsent
    · exact absurd h hfailure
    · exact absurd h hclose
    · exact absurd h hlost

section AllSent

variable (hsent : ¬ SendFails command input script) (hends : ¬ SendHangs command input script)
include hsent hends

theorem reportsOutcome_of_exitsNonZero
    (hpermitted : Permitted script.messages) (hfailure : .failure ∉ script.messages)
    (hseen : ExitsNonZero (seen script.messages)) : ReportsOutcome command input script := by
  obtain ⟨s, hs, hne⟩ := hseen
  have hfails : Fails command input script :=
    Or.inr (Or.inr (Or.inl ⟨s, mem_of_mem_seen hs, hne⟩))
  obtain ⟨e, he⟩ := execResult_error ((seen script.messages).flatMap ChannelMsg.bytes) hne
  have hresult := runExec_snd hsent hends
  rw [hpermitted.lastStatus_eq hs, he] at hresult
  refine ⟨fun hanswered => ?_, fun r hr => ⟨fun _ => ?_, fun hnot => absurd hfails hnot⟩⟩
  · rw [hresult, if_pos (stops_of_answered hsent hfailure hanswered)]
    exact Option.some_ne_none _
  · rw [hresult] at hr
    split at hr
    · exact ⟨e, (Option.some.inj hr).symm⟩
    · exact absurd hr (by simp)

theorem reportsOutcome_of_not_fails (hpermitted : Permitted script.messages) (hnot : ¬ Fails command input script) :
    ReportsOutcome command input script := by
  have hseen : ¬ ExitsNonZero (seen script.messages) := fun ⟨s, hs, hne⟩ =>
    hnot (Or.inr (Or.inr (Or.inl ⟨s, mem_of_mem_seen hs, hne⟩)))
  have hzero := lastStatus_zero hseen
  have hresult := runExec_snd hsent hends
  rw [execResult_ok hzero, hpermitted.flatMap_seen] at hresult
  refine ⟨fun hanswered => ?_, fun r hr => ⟨fun hfails => absurd hfails hnot, fun _ => ?_⟩⟩
  · have hfailure : .failure ∉ script.messages := fun hrefused => hnot (Or.inr (Or.inl hrefused))
    rw [hresult, if_pos (stops_of_answered hsent hfailure hanswered)]
    exact Option.some_ne_none _
  · rw [hresult] at hr
    split at hr
    · exact (Option.some.inj hr).symm
    · exact absurd hr (by simp)

theorem not_fails_of_reports (hzero : ∀ s, lastStatus (seen script.messages) none = some s → s = 0)
    (hstops : script.messages.any ChannelMsg.isEnd = true ∨ script.ending = .lost)
    (hreports : ReportsOutcome command input script) : ¬ Fails command input script := by
  intro hfails
  have hresult := runExec_snd hsent hends
  rw [if_pos hstops, execResult_ok hzero] at hresult
  obtain ⟨e, ⟨⟩⟩ := (hreports.2 _ hresult).1 hfails

theorem not_refused_of_reports (hpermitted : Permitted script.messages)
    (hreports : ReportsOutcome command input script) :
    .failure ∉ script.messages := by
  intro hrefused
  have hzero : ∀ s, lastStatus (seen script.messages) none = some s → s = 0 := by
    intro s hs
    rw [hpermitted.lastStatus_refused hrefused] at hs
    cases hs
  have hresult := runExec_snd hsent hends
  split at hresult
  · rename_i hstops
    exact not_fails_of_reports hsent hends hzero hstops hreports (Or.inr (Or.inl hrefused))
  · exact hreports.1 (Or.inr (Or.inl hrefused)) hresult

end AllSent

theorem isEnd_of_unseen (hexits : ExitsNonZero messages) (hseen : ¬ ExitsNonZero (seen messages)) :
    messages.any ChannelMsg.isEnd = true := by
  rcases seen_split messages with ⟨hall, -⟩ | ⟨m, after, hend, hsplit⟩
  · exact absurd (hall.symm ▸ hexits) hseen
  · rw [hsplit, List.any_append, List.any_cons, hend]
    simp

/-- The condition under which `run_exec` reports what happened to the command. -/
def OutcomeSeen (command : String) (input : Option String) (script : ExecScript) : Prop :=
  SendFails command input script ∨
    (SendHangs command input script ∧
      .failure ∉ script.messages ∧ .close ∉ script.messages ∧ script.ending ≠ .lost) ∨
    (¬ SendHangs command input script ∧ .failure ∉ script.messages ∧
      (ExitsNonZero (script.messages.takeWhile fun m => !m.isEnd) ∨
        (¬ ExitsNonZero script.messages ∧ ¬ LostOpen script)))

end Portix.Ssh
