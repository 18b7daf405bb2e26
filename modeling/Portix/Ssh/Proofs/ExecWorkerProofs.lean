import Portix.Ssh.Proofs.ExecProofs

/-!
# Proofs: the exec worker

What one turn of the loop sends and answers, by the ways it can go; then, by induction on the
events, that the turns follow one another as the requests do.
-/

namespace Portix.Ssh

open Lib Domain

variable {command : String} {input : Option String} {script : ExecScript} {request : ExecRequest} {service : Service}
  {sends : List (Sent × Sending)}

theorem sendAll_error {e : PortixError} (he : (sendAll sends).2 = some (.error e)) : ∃ message, e = .russh message := by
  fun_induction sendAll sends with
  | case1 => cases he
  | case2 => cases he
  | case3 m message rest => exact ⟨message, (Except.error.inj (Option.some.inj he)).symm⟩
  | case4 m rest ih => exact ih he

theorem sendAll_subset {m : Sent} (hm : m ∈ (sendAll sends).1) : m ∈ sends.map Prod.fst := by
  fun_induction sendAll sends with
  | case1 => exact absurd hm List.not_mem_nil
  | case2 => exact absurd hm List.not_mem_nil
  | case3 => exact absurd hm List.not_mem_nil
  | case4 first rest ih =>
    rcases List.mem_cons.mp hm with rfl | hm
    · exact List.mem_cons_self
    · exact List.mem_cons_of_mem _ (ih hm)

theorem runExec_fst (command : String) (input : Option String) (script : ExecScript) :
    (runExec command input script).1 = (sendAll (execSends command input script)).1 ∨
      (runExec command input script).1 =
        (sendAll (execSends command input script)).1 ++ [.close] := by
  rw [runExec]
  generalize sendAll (execSends command input script) = sends
  obtain ⟨sent, result⟩ := sends
  rcases result with - | e | u
  · exact Or.inl rfl
  · exact Or.inl rfl
  · simp only
    split
    · exact Or.inr rfl
    · exact Or.inl rfl

theorem not_isExec_of_mem_input {rest : List (Sent × Sending)} (hrest : execSends command input script =
      [(.openSession, script.openSession), (.exec command, script.exec)] ++ rest)
    {m : Sent} (hm : m ∈ rest.map Prod.fst) : m.isExec = false := by
  have hrest' := List.append_cancel_left hrest
  cases input with
  | none =>
    rw [← hrest'] at hm
    exact absurd hm List.not_mem_nil
  | some input =>
    rw [← hrest'] at hm
    simp only [List.map_cons, List.map_nil, List.mem_cons, List.not_mem_nil, or_false] at hm
    rcases hm with rfl | rfl <;> rfl

theorem countP_isExec_sendAll (command : String) (input : Option String) (script : ExecScript) :
    (ExecSent script ∧ (sendAll (execSends command input script)).1.countP Sent.isExec = 1) ∨
      (¬ ExecSent script ∧
        (sendAll (execSends command input script)).1.countP Sent.isExec = 0) := by
  obtain ⟨rest, hrest⟩ : ∃ rest, execSends command input script =
      [(.openSession, script.openSession), (.exec command, script.exec)] ++ rest := ⟨_, rfl⟩
  have hzero : (sendAll rest).1.countP Sent.isExec = 0 := by
    refine List.countP_eq_zero.mpr fun m hm => ?_
    rw [not_isExec_of_mem_input hrest (sendAll_subset hm)]
    exact Bool.false_ne_true
  rw [hrest, List.cons_append, List.cons_append, List.nil_append]
  rcases hopen : script.openSession with - | e | u
  · exact Or.inr ⟨by simp [ExecSent, hopen], rfl⟩
  · exact Or.inr ⟨by simp [ExecSent, hopen], rfl⟩
  · rcases hexec : script.exec with - | e | u'
    · exact Or.inr ⟨by simp [ExecSent, hexec], rfl⟩
    · exact Or.inr ⟨by simp [ExecSent, hexec], rfl⟩
    · refine Or.inl ⟨⟨hopen, hexec⟩, ?_⟩
      rw [sendAll, sendAll, List.countP_cons, List.countP_cons, hzero]
      rfl

theorem countP_isExec_runExec (command : String) (input : Option String) (script : ExecScript) :
    (ExecSent script ∧ (runExec command input script).1.countP Sent.isExec = 1) ∨
      (¬ ExecSent script ∧ (runExec command input script).1.countP Sent.isExec = 0) := by
  have hsame : (runExec command input script).1.countP Sent.isExec =
      (sendAll (execSends command input script)).1.countP Sent.isExec := by
    rcases runExec_fst command input script with heq | heq
    · rw [heq]
    · rw [heq, List.countP_append]
      rfl
  rw [hsame]
  exact countP_isExec_sendAll command input script

theorem exec_mem_runExec {command' : String}
    (hmem : .exec command' ∈ (runExec command input script).1) : command' = command := by
  have hsend : Sent.exec command' ∈ (sendAll (execSends command input script)).1 := by
    rcases runExec_fst command input script with heq | heq
    · rwa [heq] at hmem
    · rw [heq] at hmem
      rcases List.mem_append.mp hmem with hmem | hmem
      · exact hmem
      · exact absurd (List.mem_singleton.mp hmem) (by simp)
  have hin := sendAll_subset hsend
  cases input <;> simpa [execSends] using hin

theorem not_isBroken_execResult (output : List UInt8) (status : Option UInt32) :
    isBroken (execResult output status) = false := by
  unfold execResult
  cases status with
  | none => rfl
  | some s =>
    simp only
    split <;> rfl

theorem isBroken_iff {result : Except PortixError String} (hresult : (runExec command input script).2 = some result) :
    isBroken result = true ↔ SendFails command input script := by
  by_cases hsend : SendFails command input script
  · obtain ⟨e, he⟩ := hsend
    obtain ⟨message, rfl⟩ := sendAll_error he
    rw [runExec_sendFails he] at hresult
    cases hresult
    exact ⟨fun _ => ⟨_, he⟩, fun _ => rfl⟩
  · refine ⟨fun hbroken => ?_, fun h => absurd h hsend⟩
    by_cases hends : SendHangs command input script
    · cases hresult.symm.trans (runExec_sendHangs hends)
    rw [runExec_snd hsend hends] at hresult
    split at hresult
    · cases hresult
      rw [not_isBroken_execResult] at hbroken
      cases hbroken
    · cases hresult

theorem connectTwice_false {session : Bool} {connectError : Option PortixError}
    (hconnect : connectTwice session service = (false, connectError)) :
    ∃ err, connectError = some err ∧ service.connectAgain = .error err := by
  unfold connectTwice at hconnect
  cases session with
  | true => cases hconnect
  | false =>
    cases hfirst : service.connect with
    | ok u => simp [hfirst] at hconnect
    | error e =>
      cases hagain : service.connectAgain with
      | ok u => simp [hfirst, hagain] at hconnect
      | error err =>
        simp only [hfirst, hagain, Bool.false_eq_true, if_false, Prod.mk.injEq, true_and] at hconnect
        exact ⟨err, hconnect.symm, rfl⟩

/-- The ways a turn can go: there is no connection; the first attempt is not broken; it is, and there
is no new connection; there is one, and the second attempt counts. -/
theorem serve_cases (session : Bool) (request : ExecRequest) (service : Service) :
    (∃ err, service.connectAgain = .error err ∧ serve session request service = ([], false, some (.error err))) ∨
    (¬ SendFails request.command request.input service.first ∧ serve session request service =
        ((runExec request.command request.input service.first).1, true,
          (runExec request.command request.input service.first).2)) ∨
    (SendFails request.command request.input service.first ∧ ∃ err,
      service.reconnect = .error err ∧ serve session request service =
        ((runExec request.command request.input service.first).1, false, some (.error err))) ∨
    (SendFails request.command request.input service.first ∧ service.reconnect = .ok () ∧
      serve session request service =
        ((runExec request.command request.input service.first).1 ++
            (runExec request.command request.input service.second).1, true,
          (runExec request.command request.input service.second).2)) := by
  rw [serve]
  cases hconnect : connectTwice session service with
  | mk connected connectError =>
  cases connected with
  | false =>
    obtain ⟨err, rfl, hagain⟩ := connectTwice_false hconnect
    exact Or.inl ⟨err, hagain, rfl⟩
  | true =>
    refine Or.inr ?_
    by_cases hsend : SendFails request.command request.input service.first
    · refine Or.inr ?_
      obtain ⟨e, he⟩ := hsend
      have hfirst := runExec_sendFails he
      have hbroken : isBroken (.error e) = true :=
        (isBroken_iff (congrArg Prod.snd hfirst)).mpr ⟨e, he⟩
      cases hreconnect : service.reconnect with
      | error err => exact Or.inl ⟨⟨e, he⟩, err, rfl, by simp [hfirst, hbroken]⟩
      | ok u => exact Or.inr ⟨⟨e, he⟩, rfl, by simp [hfirst, hbroken]⟩
    · refine Or.inl ⟨hsend, ?_⟩
      cases hfirst : runExec request.command request.input service.first with
      | mk sent result =>
      cases result with
      | none => rfl
      | some result =>
        have hwhole : isBroken result = false := by
          rw [← Bool.not_eq_true, isBroken_iff (congrArg Prod.snd hfirst)]
          exact hsend
        simp [hwhole]

theorem serve_sends (session : Bool) (request : ExecRequest) (service : Service) :
    Sends request service ((serve session request service).1.map .sent) := by
  have hexecs : execs ((serve session request service).1.map .sent) =
      (serve session request service).1.countP Sent.isExec := List.countP_map
  have hfirst := countP_isExec_runExec request.command request.input service.first
  have hsecond := countP_isExec_runExec request.command request.input service.second
  have hmem : ∀ command, WorkerObs.sent (.exec command) ∈ (serve session request service).1.map .sent →
        .exec command ∈ (serve session request service).1 := by
    intro command hcommand
    obtain ⟨m, hm, ⟨⟩⟩ := List.mem_map.mp hcommand
    exact hm
  rcases serve_cases session request service with
    ⟨err, -, hserve⟩ | ⟨hwhole, hserve⟩ | ⟨-, err, hreconnect, hserve⟩ |
      ⟨hbreaks, hreconnect, hserve⟩ <;> rw [hserve] at hexecs hmem ⊢ <;>
    dsimp only at hexecs hmem ⊢
  · exact ⟨fun command hcommand => absurd (hmem command hcommand) List.not_mem_nil,
      by simp [execs], by simp [execs]⟩
  · refine ⟨fun command hcommand => exec_mem_runExec (hmem command hcommand), by omega, ?_⟩
    refine ⟨fun htwo => ?_, fun hagain => absurd hagain.2.2.1 hwhole⟩
    exact absurd htwo (by omega)
  · refine ⟨fun command hcommand => exec_mem_runExec (hmem command hcommand), by omega, ?_⟩
    refine ⟨fun htwo => absurd htwo (by omega), fun hagain => ?_⟩
    rw [hagain.2.2.2.1] at hreconnect
    cases hreconnect
  · rw [List.countP_append] at hexecs
    refine ⟨fun command hcommand => ?_, by omega, fun htwo => ?_, fun hagain => ?_⟩
    · rcases List.mem_append.mp (hmem command hcommand) with hcommand | hcommand
      · exact exec_mem_runExec hcommand
      · exact exec_mem_runExec hcommand
    · rcases hfirst with ⟨hexec, hone⟩ | ⟨-, hzero⟩
      · rcases hsecond with ⟨hexec', -⟩ | ⟨-, hzero⟩
        · exact ⟨by omega, hexec, hbreaks, hreconnect, hexec'⟩
        · exact absurd htwo (by omega)
      · exact absurd htwo (by omega)
    · obtain ⟨-, hexec, -, -, hexec'⟩ := hagain
      have hone := hfirst.resolve_right fun h => h.1 hexec
      have hone' := hsecond.resolve_right fun h => h.1 hexec'
      omega

theorem serve_result (session : Bool) (request : ExecRequest) (service : Service) :
    ((serve session request service).2.2 = none ∧ Hangs request service) ∨
      ∃ result, (serve session request service).2.2 = some result ∧ StemsFrom request service result := by
  rcases serve_cases session request service with
    ⟨err, hagain, hserve⟩ | ⟨-, hserve⟩ | ⟨-, err, hreconnect, hserve⟩ | ⟨-, -, hserve⟩ <;>
    rw [hserve]
  · exact Or.inr ⟨_, rfl, Or.inr (Or.inr ⟨err, rfl, Or.inl hagain⟩)⟩
  · cases hresult : (runExec request.command request.input service.first).2 with
    | none => exact Or.inl ⟨rfl, Or.inl hresult⟩
    | some result => exact Or.inr ⟨result, rfl, Or.inl hresult⟩
  · exact Or.inr ⟨_, rfl, Or.inr (Or.inr ⟨err, rfl, Or.inr hreconnect⟩)⟩
  · cases hresult : (runExec request.command request.input service.second).2 with
    | none => exact Or.inl ⟨rfl, Or.inr hresult⟩
    | some result => exact Or.inr ⟨result, rfl, Or.inr (Or.inl hresult)⟩

theorem reply?_map_sent (sent : List Sent) : (sent.map WorkerObs.sent).filterMap WorkerObs.reply? = [] := by
  rw [List.filterMap_map]
  exact List.filterMap_eq_nil_iff.mpr fun _ _ => rfl

theorem Sends.answers {obs : List WorkerObs} {result : Except PortixError String}
    (hsends : Sends request service obs) (hnone : obs.filterMap WorkerObs.reply? = [])
    (hstems : StemsFrom request service result) :
    Answers request service (obs ++ [.reply request.responseTx result]) := by
  have hexecs : execs (obs ++ [.reply request.responseTx result]) = execs obs := by
    rw [execs, List.countP_append]
    rfl
  refine ⟨⟨fun command hcommand => ?_, hexecs ▸ hsends.most, hexecs ▸ hsends.again⟩,
    result, ?_, List.getLast?_concat .., hstems⟩
  · refine hsends.own command ((List.mem_append.mp hcommand).resolve_right fun hreply => ?_)
    cases List.mem_singleton.mp hreply
  · rw [List.filterMap_append, hnone]
    rfl

/-- The worker answers the requests one after the other, each once and with what came of its own
command, which it sends again only if the connection breaks while the input is sent; it stops at a
request for which `run_exec` does not return. -/
theorem runExecWorker_answers (session : Bool) (events : List WorkerEvent) :
    ∃ handled, List.Forall₂ Handles (events.take handled.length) handled ∧
      ((handled.length = events.length ∧ runExecWorker session events = handled.flatten) ∨
        ∃ request service unanswered,
          events[handled.length]? = some (.request request service) ∧ Hangs request service ∧
          Sends request service unanswered ∧ unanswered.filterMap WorkerObs.reply? = [] ∧
          runExecWorker session events = handled.flatten ++ unanswered) := by
  induction events generalizing session with
  | nil => exact ⟨[], .nil, Or.inl ⟨rfl, rfl⟩⟩
  | cons event rest ih =>
    cases event with
    | keepalive =>
      obtain ⟨handled, hhandled, hrest⟩ := ih session
      refine ⟨(if session then [.keepalive] else []) :: handled, .cons ?_ hhandled, ?_⟩
      · cases session <;> exact ⟨rfl, rfl⟩
      rw [runExecWorker]
      rcases hrest with ⟨hlength, hrun⟩ | ⟨request, service, unanswered, hat, hhangs, hsends, hnone, hrun⟩
      · exact Or.inl ⟨congrArg (· + 1) hlength, by rw [hrun, List.flatten_cons]⟩
      · exact Or.inr ⟨request, service, unanswered, hat, hhangs, hsends, hnone,
          by rw [hrun, List.flatten_cons, List.append_assoc]⟩
    | request request service =>
      have hsends := serve_sends session request service
      rw [runExecWorker]
      generalize hserve : serve session request service = served at hsends
      have hresult := serve_result session request service
      rw [hserve] at hresult
      obtain ⟨sent, session', result⟩ := served
      rcases hresult with ⟨hnone, hhangs⟩ | ⟨result', hsome, hstems⟩
      · obtain rfl : result = none := hnone
        exact ⟨[], .nil, Or.inr ⟨request, service, _, rfl, hhangs, hsends, reply?_map_sent sent, rfl⟩⟩
      · obtain rfl : result = some result' := hsome
        obtain ⟨handled, hhandled, hrest⟩ := ih session'
        refine ⟨(sent.map .sent ++ [.reply request.responseTx result']) :: handled,
          .cons ?_ hhandled, ?_⟩
        · exact Sends.answers hsends (reply?_map_sent sent) hstems
        rcases hrest with ⟨hlength, hrun⟩ | ⟨request', service', unanswered, hat, hhangs, hsends', hnone, hrun⟩
        · exact Or.inl ⟨congrArg (· + 1) hlength, by simp [hrun]⟩
        · exact Or.inr ⟨request', service', unanswered, hat, hhangs, hsends', hnone, by simp [hrun]⟩

def brokenInput : Service where
  connect := .ok ()
  connectAgain := .ok ()
  first := { ExecScript.allSent [] .lost with data := some (.error "Channel send error") }
  reconnect := .ok ()
  second := .allSent [.exitStatus 1, .eof, .close] .silent

theorem exec_sent_twice : ExecSent brokenInput.first ∧
    runExecWorker true [.request ⟨"kubectl create -f -", some "x", 0⟩ brokenInput] =
      [.sent .openSession, .sent (.exec "kubectl create -f -"),
        .sent .openSession, .sent (.exec "kubectl create -f -"), .sent (.data [0x78]), .sent .eof,
        .sent .close,
        .reply 0 (.error (.invalidRequest
          "remote command exited with 1: remote command failed"))] :=
  ⟨⟨rfl, rfl⟩, by decide +kernel⟩

end Portix.Ssh
