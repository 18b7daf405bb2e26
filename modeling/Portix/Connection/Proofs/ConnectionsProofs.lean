import Portix.Connection.ConnectionManager

/-!
# No login is left running

A step is taken apart into what it finds (`Taken`). The ids of terminal sessions and of sessions of the
backend are apart and lead to one call each (`Ids`), so closing a terminal session disconnects the one
session of the backend that belongs to it.
-/

namespace Portix.Connection

open Lib

open Ssh (ConnectionStatus ConnectionStatusEvent)

namespace ConnectionManager

variable {m : ConnectionManager} {id ui backendId : String} {status : ConnectionStatus}
  {session : TerminalSession}

theorem mem_of_sessionById (hsession : m.sessionById id = some session) : session ∈ m.sessions ∧ session.id = id :=
  ⟨mem_of_under hsession, key_of_under hsession⟩

theorem listed_of_sessionById (hsession : m.sessionById id = some session) : m.Listed id := by
  obtain ⟨hmem, rfl⟩ := mem_of_sessionById hsession
  exact List.mem_map_of_mem hmem

theorem sessionById_eq_none : m.sessionById id = none ↔ ¬m.Listed id := under_eq_none

theorem ids_setStatus : (m.setStatus id status).ids = m.ids := by
  unfold ids setStatus
  rw [List.map_map]
  apply List.map_congr_left
  intro session _
  show (if session.id = id then { session with status := status } else session).id = session.id
  split
  · rfl
  · rfl

theorem sessionById_setStatus : (m.setStatus id status).sessionById ui = (m.sessionById ui).map fun session =>
      if session.id = id then { session with status := status } else session := by
  refine under_map _ ?_ m.sessions
  intro session
  split
  · rfl
  · rfl

theorem sessionById_setStatus_self (hsession : m.sessionById id = some session) :
    (m.setStatus id status).sessionById id = some { session with status := status } := by
  rw [sessionById_setStatus, hsession, Option.map_some, if_pos (mem_of_sessionById hsession).2]

theorem sessionById_setStatus_ne (hne : ui ≠ id) : (m.setStatus id status).sessionById ui = m.sessionById ui := by
  rw [sessionById_setStatus]
  cases hsession : m.sessionById ui with
  | none => rfl
  | some session =>
    have hother : session.id ≠ id := (mem_of_sessionById hsession).2 ▸ hne
    rw [Option.map_some, if_neg hother]

theorem setEntryPoint_eq (entry : Hop) : m.setEntryPoint id entry =
    { m with sessionEndpoints := (m.setEntryPoint id entry).sessionEndpoints } := by
  unfold setEntryPoint
  split
  · rfl
  · rfl

/-- Nothing new gets into the manager. -/
structure Shrinks (m m' : ConnectionManager) : Prop where
  ids : m'.ids.Sublist m.ids
  map : m'.backendToUiSessionIds ⊆ m.backendToUiSessionIds
  command : m'.commandSessions ⊆ m.commandSessions

/-- The sessions stay, and what they are known by. -/
structure Keeps (m m' : ConnectionManager) : Prop where
  ids : m'.ids = m.ids
  map : m'.backendToUiSessionIds = m.backendToUiSessionIds
  command : m'.commandSessions ⊆ m.commandSessions

theorem Keeps.shrinks {m' : ConnectionManager} (hkeeps : Keeps m m') : Shrinks m m' :=
  ⟨hkeeps.ids ▸ List.Sublist.refl _, hkeeps.map ▸ fun _ hmem => hmem, hkeeps.command⟩

theorem Keeps.uiSessionId {m' : ConnectionManager} (hkeeps : Keeps m m') (id : String) :
    m'.uiSessionId id = m.uiSessionId id := by
  unfold ConnectionManager.uiSessionId
  rw [hkeeps.map]

theorem Keeps.refl (m : ConnectionManager) : Keeps m m := ⟨rfl, rfl, fun _ hmem => hmem⟩

theorem Keeps.setStatus (m : ConnectionManager) (id : String) (status : ConnectionStatus) :
    Keeps m (m.setStatus id status) :=
  ⟨ids_setStatus, rfl, fun _ hmem => hmem⟩

theorem Keeps.setFailed (m : ConnectionManager) (id : String) : Keeps m (m.setFailed id).1 := by
  unfold ConnectionManager.setFailed
  split
  · exact .setStatus m id .error
  · exact .refl m

theorem Keeps.handleSessionStatus (m : ConnectionManager) (id : String) (event : ConnectionStatusEvent) :
    Keeps m (m.handleSessionStatus id event).1 := by
  unfold ConnectionManager.handleSessionStatus
  split
  · exact .refl m
  · exact .setStatus m _ event.status

theorem Keeps.handleStatus (m : ConnectionManager) (event : ConnectionStatusEvent) :
    Keeps m (m.handleStatus event).1 := by
  unfold ConnectionManager.handleStatus
  split
  · split
    · exact ⟨rfl, rfl, List.filter_subset_self _⟩
    · exact .refl m
  · exact .handleSessionStatus m _ event

theorem Keeps.renameSession (m : ConnectionManager) (id title : String) : Keeps m (m.renameSession id title) := by
  unfold ConnectionManager.renameSession
  split
  · exact .refl m
  · refine ⟨?_, rfl, fun _ hmem => hmem⟩
    unfold ConnectionManager.ids
    rw [List.map_map]
    apply List.map_congr_left
    intro session _
    show (if session.id = id then { session with title := dartTrim title } else session).id = session.id
    split
    · rfl
    · rfl

theorem Keeps.markSessionDead (m : ConnectionManager) (id message : String) :
    Keeps m (m.markSessionDead id message).1 := by
  unfold ConnectionManager.markSessionDead
  split
  · exact .refl m
  · split
    · exact .setStatus m id .error
    · exact .refl m

theorem Keeps.probeSession (m : ConnectionManager) (id : String) (failure : Option String) :
    Keeps m (m.probeSession id failure).1 := by
  have hend : Keeps m (m.endProbe id) := ⟨rfl, rfl, fun _ hmem => hmem⟩
  cases failure with
  | none => exact hend
  | some message =>
    have hdead := Keeps.markSessionDead (m.endProbe id) id message
    exact ⟨hdead.ids.trans hend.ids, hdead.map.trans hend.map, hdead.command⟩

theorem Shrinks.closeSession (m : ConnectionManager) (id : String) : Shrinks m (m.closeSession id).1 := by
  unfold ConnectionManager.closeSession
  split
  · exact (Keeps.refl m).shrinks
  · exact ⟨List.filter_sublist.map TerminalSession.id, List.filter_subset_self _, fun _ hmem => hmem⟩

theorem mem_of_uiSessionId (hmapped : m.uiSessionId backendId = some ui) :
    (backendId, ui) ∈ m.backendToUiSessionIds := by
  obtain ⟨entry, hunder, rfl⟩ := Option.map_eq_some_iff.mp hmapped
  rw [← key_of_under hunder]
  exact mem_of_under hunder

theorem mem_of_backendSessionId (hknown : m.backendSessionId ui = some backendId) :
    (backendId, ui) ∈ m.backendToUiSessionIds := by
  obtain ⟨entry, hunder, rfl⟩ := Option.map_eq_some_iff.mp hknown
  rw [← key_of_under hunder]
  exact mem_of_under hunder

theorem exists_backendSessionId (hmem : (backendId, ui) ∈ m.backendToUiSessionIds) :
    ∃ backendId', m.backendSessionId ui = some backendId' := by
  cases hknown : m.backendSessionId ui with
  | none =>
    have hnone := under_eq_none.mp (Option.map_eq_none_iff.mp hknown)
    exact absurd (List.mem_map_of_mem (f := Prod.snd) hmem) hnone
  | some backendId' => exact ⟨backendId', rfl⟩

theorem uiSessionId_mapSession : (m.mapSession backendId ui).uiSessionId id =
    if id = backendId then some ui else m.uiSessionId id := by
  have hrest : under Prod.fst id (m.backendToUiSessionIds.filter fun e => decide (e.1 ≠ backendId)) = _ :=
    under_filter (fun other => decide (other ≠ backendId)) m.backendToUiSessionIds
  unfold uiSessionId mapSession
  rw [under_append, hrest]
  by_cases hsame : id = backendId
  · simp [hsame, under_cons]
  · simp [hsame, under_cons, Ne.symm hsame]

theorem closeSession_of_some (hsession : m.sessionById ui = some session) :
    (m.closeSession ui).1.ids = m.ids.filter (fun other => other ≠ ui) ∧
    (m.closeSession ui).2 = [.closed ui, .disconnect (m.backendId ui)] ∧
    ∀ id, (m.closeSession ui).1.uiSessionId id =
      if some id ≠ m.backendSessionId ui then m.uiSessionId id else none := by
  unfold closeSession
  rw [hsession]
  refine ⟨?_, rfl, ?_⟩
  · exact (List.filter_map (f := TerminalSession.id) (p := fun other => decide (other ≠ ui))).symm
  · intro id
    have hrest : under Prod.fst id
        (m.backendToUiSessionIds.filter fun e => decide (some e.1 ≠ m.backendSessionId ui)) = _ :=
      under_filter (fun other => decide (some other ≠ m.backendSessionId ui)) m.backendToUiSessionIds
    unfold uiSessionId
    rw [hrest]
    by_cases hsame : some id = m.backendSessionId ui
    · simp [hsame]
    · simp [hsame]

theorem closeSession_of_none (hsession : m.sessionById ui = none) : m.closeSession ui = (m, []) := by
  unfold closeSession
  rw [hsession]

end ConnectionManager

theorem BackendReply.session_of_handled {reply : BackendReply} {id : String} (hreply : reply = .handled (.ok id)) :
    reply.session = some id := by
  rw [hreply]
  rfl

theorem BackendReply.session_of_replied {reply : BackendReply} {id : String} (hreply : reply = .replied (.ok id)) :
    reply.session = some id := by
  rw [hreply]
  rfl

/-- What a call waits for is there. -/
def ConnectCall.Phased (call : ConnectCall) : Prop :=
  (call.phase = .resolving → call.reply = .unasked) ∧
  (call.phase = .waiting → call.reply = .pending ∨ ∃ result, call.reply = .replied result)

namespace ConnectCall

variable {call : ConnectCall}

theorem phased_of_returned (hphase : call.phase = .returned) : call.Phased := by
  constructor
  · intro hresolving
    cases hphase.symm.trans hresolving
  · intro hwaiting
    cases hphase.symm.trans hwaiting

theorem phased_of_resolving (hphase : call.phase = .resolving) (hreply : call.reply = .unasked) : call.Phased := by
  refine ⟨fun _ => hreply, ?_⟩
  intro hwaiting
  cases hphase.symm.trans hwaiting

theorem phased_of_pending (hphase : call.phase ≠ .resolving) (hreply : call.reply = .pending) : call.Phased :=
  ⟨fun hresolving => absurd hresolving hphase, fun _ => .inl hreply⟩

theorem phased_of_replied {result : Except String String} (hphase : call.phase ≠ .resolving)
    (hreply : call.reply = .replied result) : call.Phased :=
  ⟨fun hresolving => absurd hresolving hphase, fun _ => .inr ⟨result, hreply⟩⟩

end ConnectCall

namespace Connections

variable {s s' : Connections} {h o : List ConnectionObs} {event : ConnectionEvent} {id ui : String}
  {c : Nat} {call : ConnectCall}

/-- The steps there are, by what they find. -/
inductive Taken (s : Connections) : ConnectionEvent → Connections → List ConnectionObs → Prop where
  | blank {id : String} {profile : Hop} (hfresh : id ∉ s.used) : Taken s (.connect id profile)
      { s with
        calls := s.calls ++ [⟨.tab id, profile, .returned, .unasked⟩]
        used := s.used ++ [id] }
      [.returned s.calls.length (.error "Host and username are required before connecting.")]
  | connect {id : String} {profile : Hop} (hfresh : id ∉ s.used) : Taken s (.connect id profile)
      { s with
        manager := s.manager.addSession id profile
        calls := s.calls ++ [⟨.tab id, profile, .resolving, .unasked⟩]
        used := s.used ++ [id] } []
  | openCommandSession (profile : Hop) (command : String) :
      Taken s (.openCommandSession profile command)
        { s with calls := s.calls ++ [⟨.command command, profile, .resolving, .unasked⟩] } []
  | failed {event : ConnectionEvent} {c : Nat} {call : ConnectCall} {reply : BackendReply}
      (hat : s.At c call) (hphase : call.phase ≠ .returned)
      (hreply : reply = call.reply ∨
        ∃ error, call.reply = .replied (.error error) ∧ reply = .handled (.error error)) :
      Taken s event (s.failed c { call with reply := reply }).1
        (s.failed c { call with reply := reply }).2
  | asked {c : Nat} {call : ConnectCall} {profile : SshProfile} (hat : s.At c call)
      (hphase : call.phase = .resolving) (endpoints : String → Option Endpoint) :
      Taken s (.resolved c (.ok profile))
        { s.setCall c { call with phase := .waiting, reply := .pending } with
          manager := { s.manager with sessionEndpoints := endpoints } } []
  | accept {c : Nat} {call : ConnectCall} {id : String} (hat : s.At c call)
      (hreply : call.reply = .pending) (hfresh : id ∉ s.used) : Taken s (.accept c id)
      ({ s with used := s.used ++ [id] }.setCall c { call with reply := .replied (.ok id) }) []
  | refuse {c : Nat} {call : ConnectCall} {error : String} (hat : s.At c call)
      (hreply : call.reply = .pending) :
      Taken s (.refuse c error) (s.setCall c { call with reply := .replied (.error error) }) []
  | emit {event : ConnectionStatusEvent} (hopened : s.isOpened event.sessionId = true) :
      Taken s (.emit event) { s with statuses := s.statuses ++ [event] } []
  | replyTab {c : Nat} {call : ConnectCall} {backendId id : String} (hat : s.At c call)
      (hreply : call.reply = .replied (.ok backendId)) (hphase : call.phase = .waiting)
      (hpurpose : call.purpose = .tab id) : Taken s (.reply c)
      { s.setCall c { call with phase := .returned, reply := .handled (.ok backendId) } with
        manager := s.manager.mapSession backendId id }
      (startupInput call.profile backendId ++ [.returned c (.ok none)])
  | replyCommand {c : Nat} {call : ConnectCall} {backendId command : String}
      (hat : s.At c call) (hreply : call.reply = .replied (.ok backendId))
      (hphase : call.phase = .waiting) (hpurpose : call.purpose = .command command) :
      Taken s (.reply c)
        { s.setCall c { call with phase := .returned, reply := .handled (.ok backendId) } with
          manager := { s.manager with
            commandSessions := s.manager.commandSessions ++ [backendId] } }
        [.returned c (.ok (some backendId))]
  | late {c : Nat} {call : ConnectCall} {result : Except String String}
      (hat : s.At c call) (hreply : call.reply = .replied result)
      (hphase : call.phase ≠ .waiting) :
      Taken s (.reply c) (s.setCall c { call with reply := .handled result }) []
  | status {event : ConnectionStatusEvent} {rest : List ConnectionStatusEvent}
      (hstatuses : s.statuses = event :: rest) : Taken s .status
      { s with
        statuses := rest
        handled := s.handled ++ [event]
        manager := (s.manager.handleStatus event).1 }
      (s.manager.handleStatus event).2
  | closeSession (id : String) : Taken s (.closeSession id)
      { s with manager := (s.manager.closeSession id).1 } (s.manager.closeSession id).2
  | disconnect (id : String) : Taken s (.disconnect id) s [.disconnect id]
  | renameSession (id title : String) : Taken s (.renameSession id title)
      { s with manager := s.manager.renameSession id title } []
  | heartbeat : Taken s .heartbeat { s with manager := s.manager.runHeartbeat } []
  | probe (id : String) (failure : Option String) : Taken s (.probe id failure)
      { s with manager := (s.manager.probeSession id failure).1 }
      (s.manager.probeSession id failure).2

theorem taken_of_resolved {result : Except String SshProfile} (hat : s.At c call) (hphase : call.phase = .resolving) :
    Taken s (.resolved c result) (s.resolved c call result).1 (s.resolved c call result).2 := by
  cases result with
  | error error =>
    have hopen : call.phase ≠ .returned := by
      rw [hphase]
      decide
    exact .failed hat hopen (.inl rfl)
  | ok profile =>
    obtain ⟨purpose, hop, phase, reply⟩ := call
    cases purpose with
    | tab id =>
      have hasked : Taken s (.resolved c (.ok profile)) _ _ := .asked hat hphase
        (s.manager.setEntryPoint id profile.entryPoint.hop).sessionEndpoints
      rw [← ConnectionManager.setEntryPoint_eq] at hasked
      exact hasked
    | command command => exact .asked hat hphase s.manager.sessionEndpoints

variable {result : Except String String}

theorem taken_of_replied (hat : s.At c call) (hreply : call.reply = .replied result) (hphase : call.phase = .waiting) :
    Taken s (.reply c) (s.replied c call result).1 (s.replied c call result).2 := by
  cases result with
  | error error =>
    have hopen : call.phase ≠ .returned := by
      rw [hphase]
      decide
    exact .failed hat hopen (.inr ⟨error, hreply, rfl⟩)
  | ok backendId =>
    obtain ⟨purpose, hop, phase, reply⟩ := call
    cases purpose with
    | tab id => exact .replyTab hat hreply hphase rfl
    | command command => exact .replyCommand hat hreply hphase rfl

theorem taken_of_step (hstep : s.step event = some (s', o)) : Taken s event s' o := by
  cases event with
  | connect id profile =>
    simp only [step] at hstep
    split at hstep
    · cases hstep
    · rename_i hfresh
      unfold connect at hstep
      split at hstep
      · cases hstep
        exact .blank hfresh
      · cases hstep
        exact .connect hfresh
  | openCommandSession profile command =>
    cases hstep
    exact .openCommandSession profile command
  | resolved c result =>
    simp only [step] at hstep
    split at hstep
    · rename_i call hat
      split at hstep
      · rename_i hphase
        have htaken : Taken s (.resolved c result) _ _ := taken_of_resolved hat hphase
        rw [Option.some.inj hstep] at htaken
        exact htaken
      · cases hstep
    · cases hstep
  | accept c id =>
    simp only [step] at hstep
    split at hstep
    · rename_i call hat
      split at hstep
      · rename_i hcond
        cases hstep
        exact .accept hat hcond.1 hcond.2
      · cases hstep
    · cases hstep
  | refuse c error =>
    simp only [step] at hstep
    split at hstep
    · rename_i call hat
      split at hstep
      · rename_i hreply
        cases hstep
        exact .refuse hat hreply
      · cases hstep
    · cases hstep
  | emit event =>
    simp only [step] at hstep
    split at hstep
    · rename_i hopened
      cases hstep
      exact .emit hopened
    · cases hstep
  | reply c =>
    simp only [step] at hstep
    split at hstep
    · rename_i call hat
      split at hstep
      · rename_i result hreply
        split at hstep
        · rename_i hphase
          have htaken := taken_of_replied hat hreply hphase
          rw [Option.some.inj hstep] at htaken
          exact htaken
        · rename_i hphase
          cases hstep
          exact .late hat hreply hphase
      · cases hstep
    · cases hstep
  | timeout c =>
    simp only [step] at hstep
    split at hstep
    · rename_i call hat
      split at hstep
      · rename_i hphase
        have hopen : call.phase ≠ .returned := by
          rw [hphase]
          decide
        have htaken : Taken s (.timeout c) (s.failed c call).1 (s.failed c call).2 :=
          .failed hat hopen (.inl rfl)
        rw [Option.some.inj hstep] at htaken
        exact htaken
      · cases hstep
    · cases hstep
  | status =>
    simp only [step] at hstep
    split at hstep
    · cases hstep
    · rename_i event rest hstatuses
      cases hstep
      exact .status hstatuses
  | closeSession id =>
    cases hstep
    exact .closeSession id
  | disconnect id =>
    cases hstep
    exact .disconnect id
  | renameSession id title =>
    cases hstep
    exact .renameSession id title
  | heartbeat =>
    cases hstep
    exact .heartbeat
  | probe id failure =>
    simp only [step] at hstep
    split at hstep
    · cases hstep
      exact .probe id failure
    · cases hstep

/-- Every id leads to one call: that of a terminal session, and that of a session of the backend. -/
structure Ids (s : Connections) : Prop where
  nodup : s.manager.ids.Nodup
  tab_of_listed {ui : String} : ui ∈ s.manager.ids →
    ∃ c call, s.At c call ∧ call.purpose = .tab ui
  tab_used {c : Nat} {call : ConnectCall} {ui : String} : s.At c call →
    call.purpose = .tab ui → ui ∈ s.used
  session_used {c : Nat} {call : ConnectCall} {id : String} : s.At c call →
    call.reply.session = some id → id ∈ s.used
  tab_unique {c c' : Nat} {call call' : ConnectCall} {ui : String} : s.At c call →
    s.At c' call' → call.purpose = .tab ui → call'.purpose = .tab ui → c = c'
  session_unique {c c' : Nat} {call call' : ConnectCall} {id : String} : s.At c call →
    s.At c' call' → call.reply.session = some id → call'.reply.session = some id → c = c'
  apart {c c' : Nat} {call call' : ConnectCall} {id ui : String} : s.At c call →
    s.At c' call' → call.reply.session = some id → call'.purpose = .tab ui → id ≠ ui
  mapped {id ui : String} : (id, ui) ∈ s.manager.backendToUiSessionIds →
    ∃ c call, s.At c call ∧ call.purpose = .tab ui ∧ call.reply = .handled (.ok id) ∧
      call.phase = .returned
  command {id : String} : id ∈ s.manager.commandSessions →
    ∃ c call command, s.At c call ∧ call.purpose = .command command ∧
      call.reply = .handled (.ok id)
  phased {c : Nat} {call : ConnectCall} : s.At c call → call.Phased
  sent {event : ConnectionStatusEvent} : event ∈ s.handled ++ s.statuses →
    ∃ c call, s.At c call ∧ call.reply.session = some event.sessionId

namespace Ids

theorem initial : Ids initial where
  nodup := List.nodup_nil
  tab_of_listed hmem := by cases hmem
  tab_used hat := by cases hat
  session_used hat := by cases hat
  tab_unique hat := by cases hat
  session_unique hat := by cases hat
  apart hat := by cases hat
  mapped hmem := by cases hmem
  command hmem := by cases hmem
  phased hat := by cases hat
  sent hmem := by cases hmem

end Ids

/-- What a call is for and what was opened for it stays, and an answer that was taken. -/
structure GoesOn (call call' : ConnectCall) : Prop where
  purpose : call'.purpose = call.purpose
  session {id : String} : call.reply.session = some id → call'.reply.session = some id
  handled {result : Except String String} : call.reply = .handled result → call'.reply = .handled result
  returned : call.phase = .returned → call'.phase = .returned

/-- The calls go on, and one of them may get an id that was not used. -/
structure Grows (s s' : Connections) (c : Nat) : Prop where
  used : s.used ⊆ s'.used
  kept {j : Nat} {x : ConnectCall} : s.At j x → ∃ y, s'.At j y ∧ GoesOn x y
  tab {j : Nat} {y : ConnectCall} {ui : String} : s'.At j y → y.purpose = .tab ui →
    (∃ x, s.At j x ∧ x.purpose = .tab ui) ∨ j = c ∧ ui ∉ s.used ∧ ui ∈ s'.used ∧ y.reply.session = none
  session {j : Nat} {y : ConnectCall} {id : String} : s'.At j y → y.reply.session = some id →
    (∃ x, s.At j x ∧ x.reply.session = some id) ∨ j = c ∧ id ∉ s.used ∧ id ∈ s'.used
  phased {j : Nat} {y : ConnectCall} : s'.At j y → y.Phased

theorem Ids.grow (hinv : Ids s) (hgrows : Grows s s' c) (hids : s'.manager.ids.Sublist s.manager.ids)
    (hmap : s'.manager.backendToUiSessionIds ⊆ s.manager.backendToUiSessionIds)
    (hcommand : s'.manager.commandSessions ⊆ s.manager.commandSessions)
    (hsent : s'.handled ++ s'.statuses ⊆ s.handled ++ s.statuses) : Ids s' where
  nodup := hinv.nodup.sublist hids
  tab_of_listed hmem := by
    obtain ⟨j, x, hx, hpurpose⟩ := hinv.tab_of_listed (hids.subset hmem)
    obtain ⟨y, hy, hon⟩ := hgrows.kept hx
    exact ⟨j, y, hy, hon.purpose.trans hpurpose⟩
  tab_used hy hpurpose := by
    rcases hgrows.tab hy hpurpose with ⟨x, hx, hbefore⟩ | ⟨-, -, hnow, -⟩
    · exact hgrows.used (hinv.tab_used hx hbefore)
    · exact hnow
  session_used hy hsession := by
    rcases hgrows.session hy hsession with ⟨x, hx, hbefore⟩ | ⟨-, -, hnow⟩
    · exact hgrows.used (hinv.session_used hx hbefore)
    · exact hnow
  tab_unique hy hy' hpurpose hpurpose' := by
    rcases hgrows.tab hy hpurpose with ⟨x, hx, hbefore⟩ | ⟨hc, hfresh, -⟩
    · rcases hgrows.tab hy' hpurpose' with ⟨x', hx', hbefore'⟩ | ⟨-, hfresh, -⟩
      · exact hinv.tab_unique hx hx' hbefore hbefore'
      · exact absurd (hinv.tab_used hx hbefore) hfresh
    · rcases hgrows.tab hy' hpurpose' with ⟨x', hx', hbefore'⟩ | ⟨hc', -⟩
      · exact absurd (hinv.tab_used hx' hbefore') hfresh
      · rw [hc, hc']
  session_unique hy hy' hsession hsession' := by
    rcases hgrows.session hy hsession with ⟨x, hx, hbefore⟩ | ⟨hc, hfresh, -⟩
    · rcases hgrows.session hy' hsession' with ⟨x', hx', hbefore'⟩ | ⟨-, hfresh, -⟩
      · exact hinv.session_unique hx hx' hbefore hbefore'
      · exact absurd (hinv.session_used hx hbefore) hfresh
    · rcases hgrows.session hy' hsession' with ⟨x', hx', hbefore'⟩ | ⟨hc', -⟩
      · exact absurd (hinv.session_used hx' hbefore') hfresh
      · rw [hc, hc']
  apart hy hy' hsession hpurpose := by
    rcases hgrows.session hy hsession with ⟨x, hx, hbefore⟩ | ⟨rfl, hfresh, -⟩
    · rcases hgrows.tab hy' hpurpose with ⟨x', hx', hbefore'⟩ | ⟨-, hfresh, -⟩
      · exact hinv.apart hx hx' hbefore hbefore'
      · rintro rfl
        exact hfresh (hinv.session_used hx hbefore)
    · rcases hgrows.tab hy' hpurpose with ⟨x', hx', hbefore'⟩ | ⟨rfl, -, -, hnone⟩
      · rintro rfl
        exact hfresh (hinv.tab_used hx' hbefore')
      · cases hy.symm.trans hy'
        cases hnone.symm.trans hsession
  mapped hmem := by
    obtain ⟨j, x, hx, hpurpose, hreply, hphase⟩ := hinv.mapped (hmap hmem)
    obtain ⟨y, hy, hon⟩ := hgrows.kept hx
    exact ⟨j, y, hy, hon.purpose.trans hpurpose, hon.handled hreply, hon.returned hphase⟩
  command hmem := by
    obtain ⟨j, x, command, hx, hpurpose, hreply⟩ := hinv.command (hcommand hmem)
    obtain ⟨y, hy, hon⟩ := hgrows.kept hx
    exact ⟨j, y, command, hy, hon.purpose.trans hpurpose, hon.handled hreply⟩
  phased hy := hgrows.phased hy
  sent hmem := by
    obtain ⟨j, x, hx, hsession⟩ := hinv.sent (hsent hmem)
    obtain ⟨y, hy, hon⟩ := hgrows.kept hx
    exact ⟨j, y, hy, hon.session hsession⟩

theorem Ids.congr (hinv : Ids s) (hcalls : s'.calls = s.calls) (hused : s'.used = s.used)
    (hids : s'.manager.ids.Sublist s.manager.ids)
    (hmap : s'.manager.backendToUiSessionIds ⊆ s.manager.backendToUiSessionIds)
    (hcommand : s'.manager.commandSessions ⊆ s.manager.commandSessions)
    (hsent : s'.handled ++ s'.statuses ⊆ s.handled ++ s.statuses) : Ids s' := by
  have hat : ∀ {c call}, s'.At c call ↔ s.At c call := by
    intro c call
    unfold At
    rw [hcalls]
  have hgrows : Grows s s' 0 := {
    used := hused ▸ fun _ hmem => hmem
    kept := fun hx => ⟨_, hat.mpr hx, ⟨rfl, id, id, id⟩⟩
    tab := fun hy hpurpose => .inl ⟨_, hat.mp hy, hpurpose⟩
    session := fun hy hsession => .inl ⟨_, hat.mp hy, hsession⟩
    phased := fun hy => hinv.phased (hat.mp hy) }
  exact hinv.grow hgrows hids hmap hcommand hsent

/-- A call goes on; what it is for and what was opened for it stays. -/
structure Follows (call call' : ConnectCall) : Prop where
  purpose : call'.purpose = call.purpose
  session : call'.reply.session = call.reply.session
  handled {result : Except String String} : call.reply = .handled result →
    call'.reply = .handled result
  returned : call.phase = .returned → call'.phase = .returned
  phased : call'.Phased

theorem Ids.setCall (hinv : Ids s) {call' : ConnectCall} (hat : s.At c call)
    (hfollows : Follows call call') : Ids (s.setCall c call') := by
  have hback : ∀ {j y}, (s.setCall c call').At j y →
      y.Phased ∧ ∃ x, s.At j x ∧ x.purpose = y.purpose ∧ x.reply.session = y.reply.session := by
    intro j y hy
    rcases (getElem?_set_eq_some hat).mp hy with ⟨rfl, rfl⟩ | ⟨_, hold⟩
    · exact ⟨hfollows.phased, call, hat, hfollows.purpose.symm, hfollows.session.symm⟩
    · exact ⟨hinv.phased hold, y, hold, rfl, rfl⟩
  have hgrows : Grows s (s.setCall c call') c := by
    refine ⟨fun _ hmem => hmem, fun {j x} hx => ?_, fun hy hpurpose => ?_, fun hy hsession => ?_,
      fun hy => (hback hy).1⟩
    · by_cases hsame : j = c
      · subst hsame
        cases hx.symm.trans hat
        exact ⟨call', (getElem?_set_eq_some hat).mpr (.inl ⟨rfl, rfl⟩), hfollows.purpose,
          fun hsession => hfollows.session.trans hsession, hfollows.handled, hfollows.returned⟩
      · exact ⟨x, (getElem?_set_eq_some hat).mpr (.inr ⟨hsame, hx⟩), ⟨rfl, id, id, id⟩⟩
    · obtain ⟨-, x, hx, hsame, -⟩ := hback hy
      exact .inl ⟨x, hx, hsame.trans hpurpose⟩
    · obtain ⟨-, x, hx, -, hsame⟩ := hback hy
      exact .inl ⟨x, hx, hsame.trans hsession⟩
  exact hinv.grow hgrows (List.Sublist.refl _) (fun _ hmem => hmem) (fun _ hmem => hmem) (fun _ hmem => hmem)

theorem Ids.append (hinv : Ids s) {extra : List String} (hreply : call.reply = .unasked)
    (hphased : call.Phased) (htab : ∀ {ui}, call.purpose = .tab ui → ui ∉ s.used ∧ ui ∈ extra) :
    Ids { s with calls := s.calls ++ [call], used := s.used ++ extra } := by
  have hcases : ∀ {j x}, At { s with calls := s.calls ++ [call], used := s.used ++ extra } j x ↔
      s.At j x ∨ (j = s.calls.length ∧ x = call) := getElem?_concat_eq_some
  have hnone : call.reply.session = none := by
    rw [hreply]
    rfl
  have hgrows : Grows s { s with calls := s.calls ++ [call], used := s.used ++ extra } s.calls.length := by
    refine ⟨List.subset_append_left _ _, fun hx => ⟨_, hcases.mpr (.inl hx), ⟨rfl, id, id, id⟩⟩,
      fun hy hpurpose => ?_, fun hy hsession => ?_, fun hy => ?_⟩
    · rcases hcases.mp hy with hbefore | ⟨hc, rfl⟩
      · exact .inl ⟨_, hbefore, hpurpose⟩
      · obtain ⟨hfresh, hextra⟩ := htab hpurpose
        exact .inr ⟨hc, hfresh, List.mem_append_right _ hextra, hnone⟩
    · rcases hcases.mp hy with hbefore | ⟨_, rfl⟩
      · exact .inl ⟨_, hbefore, hsession⟩
      · cases hnone.symm.trans hsession
    · rcases hcases.mp hy with hbefore | ⟨_, rfl⟩
      · exact hinv.phased hbefore
      · exact hphased
  exact hinv.grow hgrows (List.Sublist.refl _) (fun _ hmem => hmem) (fun _ hmem => hmem) (fun _ hmem => hmem)

theorem Ids.addSession (hinv : Ids s) (hat : s.At c call) (hpurpose : call.purpose = .tab ui)
    (hnew : ui ∉ s.manager.ids) (profile : Hop) :
    Ids { s with manager := s.manager.addSession ui profile } := by
  have hids : (s.manager.addSession ui profile).ids = s.manager.ids ++ [ui] := by
    unfold ConnectionManager.ids ConnectionManager.addSession
    rw [List.map_append]
    rfl
  exact { hinv with
    nodup := by
      rw [hids, List.nodup_append_comm, List.singleton_append, List.nodup_cons]
      exact ⟨hnew, hinv.nodup⟩
    tab_of_listed := by
      intro ui' hmem
      rw [hids] at hmem
      rcases List.mem_append.mp hmem with hbefore | hnow
      · exact hinv.tab_of_listed hbefore
      · rw [List.mem_singleton.mp hnow]
        exact ⟨c, call, hat, hpurpose⟩ }

theorem Ids.accept (hinv : Ids s) (hat : s.At c call) (hreply : call.reply = .pending) (hfresh : id ∉ s.used) :
    Ids ({ s with used := s.used ++ [id] }.setCall c { call with reply := .replied (.ok id) }) := by
  have hcases : ∀ {j x}, At ({ s with used := s.used ++ [id] }.setCall c { call with reply := .replied (.ok id) }) j x ↔
      (j = c ∧ x = { call with reply := .replied (.ok id) }) ∨ (j ≠ c ∧ s.At j x) :=
    getElem?_set_eq_some hat
  have hgoes : GoesOn call { call with reply := .replied (.ok id) } := by
    refine ⟨rfl, fun hsession => ?_, fun hhandled => ?_, fun hphase => hphase⟩
    · rw [hreply] at hsession
      cases hsession
    · cases hreply.symm.trans hhandled
  have hgrows : Grows s ({ s with used := s.used ++ [id] }.setCall c
      { call with reply := .replied (.ok id) }) c := by
    refine ⟨List.subset_append_left _ _, fun {j x} hx => ?_, fun hy hpurpose => ?_, fun hy hsession => ?_, fun hy => ?_⟩
    · by_cases hsame : j = c
      · subst hsame
        cases hx.symm.trans hat
        exact ⟨_, hcases.mpr (.inl ⟨rfl, rfl⟩), hgoes⟩
      · exact ⟨x, hcases.mpr (.inr ⟨hsame, hx⟩), ⟨rfl, fun h => h, fun h => h, fun h => h⟩⟩
    · rcases hcases.mp hy with ⟨rfl, rfl⟩ | ⟨_, hold⟩
      · exact .inl ⟨call, hat, hpurpose⟩
      · exact .inl ⟨_, hold, hpurpose⟩
    · rcases hcases.mp hy with ⟨rfl, rfl⟩ | ⟨_, hold⟩
      · cases hsession
        exact .inr ⟨rfl, hfresh, List.mem_append_right _ (List.mem_singleton_self _)⟩
      · exact .inl ⟨_, hold, hsession⟩
    · rcases hcases.mp hy with ⟨rfl, rfl⟩ | ⟨_, hold⟩
      · refine ConnectCall.phased_of_replied (fun hphase => ?_) rfl
        cases ((hinv.phased hat).1 hphase).symm.trans hreply
      · exact hinv.phased hold
  exact hinv.grow hgrows (List.Sublist.refl _) (fun _ hmem => hmem) (fun _ hmem => hmem) (fun _ hmem => hmem)

theorem Ids.shrink (hinv : Ids s) {m : ConnectionManager} (hm : s.manager.Shrinks m) : Ids { s with manager := m } :=
  hinv.congr rfl rfl hm.ids hm.map hm.command (fun _ hmem => hmem)

theorem Ids.failed (hinv : Ids s) {reply : BackendReply} (hat : s.At c call) (hreply : reply = call.reply ∨
      ∃ error, call.reply = .replied (.error error) ∧ reply = .handled (.error error)) :
    Ids (s.failed c { call with reply := reply }).1 := by
  have hset : Ids (s.setCall c { call with phase := .returned, reply := reply }) := by
    refine hinv.setCall hat ⟨rfl, ?_, ?_, fun _ => rfl, ?_⟩
    · rcases hreply with rfl | ⟨error, hbefore, rfl⟩
      · rfl
      · rw [hbefore]
        rfl
    · intro result hhandled
      rcases hreply with rfl | ⟨error, hbefore, rfl⟩
      · exact hhandled
      · cases hbefore.symm.trans hhandled
    · constructor
      · rintro ⟨⟩
      · rintro ⟨⟩
  obtain ⟨purpose, hop, phase, reply'⟩ := call
  cases purpose with
  | tab id => exact hset.shrink (ConnectionManager.Keeps.setFailed s.manager id).shrinks
  | command command => exact hset

theorem Ids.mapSession (hinv : Ids s) (hat : s.At c call) (hpurpose : call.purpose = .tab ui)
    (hreply : call.reply = .handled (.ok id)) (hphase : call.phase = .returned) :
    Ids { s with manager := s.manager.mapSession id ui } :=
  { hinv with
    mapped := by
      intro id' ui' hmem
      rcases List.mem_append.mp hmem with hbefore | hnow
      · exact hinv.mapped (List.mem_of_mem_filter hbefore)
      · cases List.mem_singleton.mp hnow
        exact ⟨c, call, hat, hpurpose, hreply, hphase⟩ }

theorem Ids.addCommand (hinv : Ids s) {command : String} (hat : s.At c call)
    (hpurpose : call.purpose = .command command) (hreply : call.reply = .handled (.ok id)) :
    Ids { s with manager := { s.manager with
      commandSessions := s.manager.commandSessions ++ [id] } } :=
  { hinv with
    command := by
      intro id' hmem
      rcases List.mem_append.mp hmem with hbefore | hnow
      · exact hinv.command hbefore
      · rw [List.mem_singleton.mp hnow]
        exact ⟨c, call, command, hat, hpurpose, hreply⟩ }

theorem at_of_isOpened (hopened : s.isOpened id = true) : ∃ c call, s.At c call ∧ call.reply.session = some id := by
  obtain ⟨call, hmem, hsession⟩ := List.any_eq_true.mp hopened
  obtain ⟨c, hat⟩ := List.getElem?_of_mem hmem
  exact ⟨c, call, hat, of_decide_eq_true hsession⟩

theorem Ids.emit (hinv : Ids s) {event : ConnectionStatusEvent} (hopened : s.isOpened event.sessionId = true) :
    Ids { s with statuses := s.statuses ++ [event] } :=
  { hinv with
    sent := by
      intro event' hmem
      rw [← List.append_assoc] at hmem
      rcases List.mem_append.mp hmem with hbefore | hnow
      · exact hinv.sent hbefore
      · rw [List.mem_singleton.mp hnow]
        exact at_of_isOpened hopened }

theorem Follows.reply (hreply : call.reply = .replied result) :
    Follows call { call with phase := .returned, reply := .handled result } where
  purpose := rfl
  session := by
    rw [hreply]
    rfl
  handled hhandled := by cases hreply.symm.trans hhandled
  returned _ := rfl
  phased := ConnectCall.phased_of_returned rfl

theorem Ids.step (hinv : Ids s) (htaken : Taken s event s' o) : Ids s' := by
  cases htaken with
  | @blank id profile hfresh =>
    refine hinv.append rfl (ConnectCall.phased_of_returned rfl) ?_
    rintro ui ⟨⟩
    exact ⟨hfresh, List.mem_singleton_self _⟩
  | @connect id profile hfresh =>
    have happend : Ids { s with
        calls := s.calls ++ [⟨.tab id, profile, .resolving, .unasked⟩]
        used := s.used ++ [id] } := by
      refine hinv.append rfl (ConnectCall.phased_of_resolving rfl rfl) ?_
      rintro ui ⟨⟩
      exact ⟨hfresh, List.mem_singleton_self _⟩
    refine happend.addSession (getElem?_concat_eq_some.mpr (.inr ⟨rfl, rfl⟩)) rfl ?_ profile
    intro hmem
    obtain ⟨c, call, hat, hpurpose⟩ := hinv.tab_of_listed hmem
    exact hfresh (hinv.tab_used hat hpurpose)
  | openCommandSession profile command =>
    have happend : Ids { s with
        calls := s.calls ++ [⟨.command command, profile, .resolving, .unasked⟩]
        used := s.used ++ [] } :=
      hinv.append rfl (ConnectCall.phased_of_resolving rfl rfl) (fun htab => by cases htab)
    rw [List.append_nil] at happend
    exact happend
  | failed hat hphase hreply => exact hinv.failed hat hreply
  | @asked c call profile hat hphase endpoints =>
    have hunasked := (hinv.phased hat).1 hphase
    have hset : Ids (s.setCall c { call with phase := .waiting, reply := .pending }) := by
      refine hinv.setCall hat ⟨rfl, ?_, ?_, ?_, ConnectCall.phased_of_pending (by simp) rfl⟩
      · rw [hunasked]
        rfl
      · intro result hhandled
        cases hunasked.symm.trans hhandled
      · intro hreturned
        cases hphase.symm.trans hreturned
    exact hset.congr rfl rfl (List.Sublist.refl _) (fun _ hmem => hmem) (fun _ hmem => hmem)
      (fun _ hmem => hmem)
  | accept hat hreply hfresh => exact hinv.accept hat hreply hfresh
  | refuse hat hreply =>
    refine hinv.setCall hat ⟨rfl, ?_, ?_, id, ConnectCall.phased_of_replied ?_ rfl⟩
    · rw [hreply]
      rfl
    · intro result hhandled
      cases hreply.symm.trans hhandled
    · intro hphase
      cases ((hinv.phased hat).1 hphase).symm.trans hreply
  | emit hopened => exact hinv.emit hopened
  | replyTab hat hreply hphase hpurpose =>
    exact (hinv.setCall hat (.reply hreply)).mapSession
      ((getElem?_set_eq_some hat).mpr (.inl ⟨rfl, rfl⟩)) hpurpose rfl rfl
  | replyCommand hat hreply hphase hpurpose =>
    exact (hinv.setCall hat (.reply hreply)).addCommand
      ((getElem?_set_eq_some hat).mpr (.inl ⟨rfl, rfl⟩)) hpurpose rfl
  | @late c call result hat hreply hphase =>
    have hreturned : call.phase = .returned := by
      cases hbefore : call.phase with
      | resolving => cases ((hinv.phased hat).1 hbefore).symm.trans hreply
      | waiting => exact absurd hbefore hphase
      | returned => rfl
    have hset := hinv.setCall hat (.reply hreply)
    rw [← hreturned] at hset
    exact hset
  | @status event rest hstatuses =>
    have hshrinks := (ConnectionManager.Keeps.handleStatus s.manager event).shrinks
    refine hinv.congr rfl rfl hshrinks.ids hshrinks.map hshrinks.command ?_
    intro event' hmem
    rw [hstatuses]
    simpa using hmem
  | closeSession id => exact hinv.shrink (.closeSession s.manager id)
  | disconnect id => exact hinv
  | renameSession id title => exact hinv.shrink (ConnectionManager.Keeps.renameSession s.manager id title).shrinks
  | heartbeat => exact { hinv with }
  | probe id failure => exact hinv.shrink (ConnectionManager.Keeps.probeSession s.manager id failure).shrinks

theorem ids_of_reaches {G : Connections → ConnectionEvent → Prop} (hreach : Reaches step G initial h s) : Ids s := by
  refine hreach.invariant (I := fun _ s => Ids s) .initial ?_
  intro h s event s' o hinv _ hstep
  exact hinv.step (taken_of_step hstep)

/-- What a step does to the calls that have their reply, by its effect on the rest. -/
structure Retains (h h' : List ConnectionObs) (s s' : Connections) : Prop where
  ended {id : String} : s.Ended id → s'.Ended id
  owned {id : String} : s.Owned id → s'.Owned id ∨ .disconnect id ∈ h'
  observed {x : ConnectionObs} : x ∈ h → x ∈ h'

/-- The session of a call is over, belongs to its terminal session, or is to be disconnected. -/
def Settled (h : List ConnectionObs) (s : Connections) (id : String) : Prop :=
  ¬s.Ended id → s.Owned id ∨ .disconnect id ∈ h

variable {h' : List ConnectionObs}

theorem Retains.settled (hretains : Retains h h' s s') (hsettled : Settled h s id) : Settled h' s' id := by
  intro hrunning
  rcases hsettled (fun hended => hrunning (hretains.ended hended)) with howned | hasked
  · exact hretains.owned howned
  · exact .inr (hretains.observed hasked)

theorem NoOrphans.congr (hinv : NoOrphans h s) (hretains : Retains h h' s s')
    (hback : ∀ (c : Nat) (call : ConnectCall) (id ui : String), s'.At c call →
      call.purpose = .tab ui → call.reply = .handled (.ok id) →
      ∃ call', s.At c call' ∧ call'.purpose = .tab ui ∧ call'.reply = .handled (.ok id)) :
    NoOrphans h' s' := by
  intro id c call ui hat hpurpose hreply
  obtain ⟨call', hat', hpurpose', hreply'⟩ := hback c call id ui hat hpurpose hreply
  exact hretains.settled (hinv id c call' ui hat' hpurpose' hreply')

theorem Retains.keeps (hkeeps : s.manager.Keeps s'.manager)
    (hsent : s.handled ++ s.statuses ⊆ s'.handled ++ s'.statuses) : Retains h (h ++ o) s s' where
  ended := by
    rintro id ⟨event, hmem, hover⟩
    exact ⟨event, hsent hmem, hover⟩
  owned := by
    rintro id ⟨ui, hmapped, hlisted⟩
    refine .inl ⟨ui, ?_, ?_⟩
    · exact (hkeeps.uiSessionId id).trans hmapped
    · show ui ∈ s'.manager.ids
      rw [hkeeps.ids]
      exact hlisted
  observed hmem := List.mem_append_left _ hmem

theorem Ids.mapped_unique (hinv : Ids s) {id' : String} (hmem : (id, ui) ∈ s.manager.backendToUiSessionIds)
    (hmem' : (id', ui) ∈ s.manager.backendToUiSessionIds) : id = id' := by
  obtain ⟨c, call, hat, hpurpose, hreply, -⟩ := hinv.mapped hmem
  obtain ⟨c', call', hat', hpurpose', hreply', -⟩ := hinv.mapped hmem'
  obtain rfl := hinv.tab_unique hat hat' hpurpose hpurpose'
  cases hat.symm.trans hat'
  exact Except.ok.inj (BackendReply.handled.inj (hreply.symm.trans hreply'))

theorem Ids.mapped_eq (hinv : Ids s) {ui' : String} (hmem : (id, ui) ∈ s.manager.backendToUiSessionIds)
    (hmem' : (id, ui') ∈ s.manager.backendToUiSessionIds) : ui = ui' := by
  obtain ⟨c, call, hat, hpurpose, hreply, -⟩ := hinv.mapped hmem
  obtain ⟨c', call', hat', hpurpose', hreply', -⟩ := hinv.mapped hmem'
  obtain rfl := hinv.session_unique hat hat' (BackendReply.session_of_handled hreply)
    (BackendReply.session_of_handled hreply')
  cases hat.symm.trans hat'
  exact Purpose.tab.inj (hpurpose.symm.trans hpurpose')

theorem Retains.closeSession (hids : Ids s) (ui : String) :
    Retains h (h ++ (s.manager.closeSession ui).2) s { s with manager := (s.manager.closeSession ui).1 } where
  ended hended := hended
  owned := by
    rintro id ⟨owner, hmapped, hlisted⟩
    cases hsession : s.manager.sessionById ui with
    | none =>
      rw [ConnectionManager.closeSession_of_none hsession]
      exact .inl ⟨owner, hmapped, hlisted⟩
    | some session =>
      obtain ⟨hleft, hobserved, hlookup⟩ := ConnectionManager.closeSession_of_some hsession
      have hmem := ConnectionManager.mem_of_uiSessionId hmapped
      by_cases howner : owner = ui
      · subst howner
        obtain ⟨id', hknown⟩ := ConnectionManager.exists_backendSessionId hmem
        have hsame := hids.mapped_unique hmem (ConnectionManager.mem_of_backendSessionId hknown)
        have hbackend : s.manager.backendId owner = id := by
          unfold ConnectionManager.backendId
          rw [hknown, hsame]
          rfl
        rw [hobserved, hbackend]
        exact .inr (by simp)
      · have hother : some id ≠ s.manager.backendSessionId ui := by
          intro hknown
          exact howner (hids.mapped_eq hmem (ConnectionManager.mem_of_backendSessionId hknown.symm))
        refine .inl ⟨owner, ?_, ?_⟩
        · show (s.manager.closeSession ui).1.uiSessionId id = some owner
          rw [hlookup, if_pos hother]
          exact hmapped
        · show owner ∈ (s.manager.closeSession ui).1.ids
          rw [hleft]
          exact List.mem_filter.mpr ⟨hlisted, decide_eq_true howner⟩
  observed hmem := List.mem_append_left _ hmem

theorem Retains.mapSession (hids : Ids s) (hat : s.At c call) (hpurpose : call.purpose = .tab ui)
    (hreply : call.reply.session = some id) (calls : List ConnectCall) :
    Retains h (h ++ o) s { s with manager := s.manager.mapSession id ui, calls := calls } where
  ended hended := hended
  owned := by
    rintro id' ⟨owner, hmapped, hlisted⟩
    refine .inl ⟨owner, ?_, hlisted⟩
    show (s.manager.mapSession id ui).uiSessionId id' = some owner
    rw [ConnectionManager.uiSessionId_mapSession]
    by_cases hsame : id' = id
    · subst hsame
      obtain ⟨c', call', hat', hpurpose', hreply', -⟩ :=
        hids.mapped (ConnectionManager.mem_of_uiSessionId hmapped)
      obtain rfl := hids.session_unique hat hat' hreply (BackendReply.session_of_handled hreply')
      cases hat.symm.trans hat'
      rw [if_pos rfl, Purpose.tab.inj (hpurpose.symm.trans hpurpose')]
    · rw [if_neg hsame]
      exact hmapped
  observed hmem := List.mem_append_left _ hmem

theorem NoOrphans.setCall {call' : ConnectCall} (hinv : NoOrphans h s)
    (hretains : Retains h h' s s') (hcalls : s'.calls = s.calls.set c call') (hat : s.At c call)
    (hnew : ∀ {id ui : String}, call'.purpose = .tab ui → call'.reply = .handled (.ok id) →
      call.purpose = .tab ui ∧ call.reply = .handled (.ok id)) : NoOrphans h' s' := by
  refine hinv.congr hretains ?_
  intro j x id ui hx hpurpose hreply
  unfold At at hx
  rw [hcalls] at hx
  rcases (getElem?_set_eq_some hat).mp hx with ⟨rfl, rfl⟩ | ⟨_, hold⟩
  · obtain ⟨hpurpose', hreply'⟩ := hnew hpurpose hreply
    exact ⟨call, hat, hpurpose', hreply'⟩
  · exact ⟨x, hold, hpurpose, hreply⟩

theorem NoOrphans.reply {call' : ConnectCall} (hinv : NoOrphans h s) (hretains : Retains h h' s s')
    (hcalls : s'.calls = s.calls.set c call')
    (hat : s.At c call) (hhandled : call'.reply = .handled result)
    (hsettled : ∀ {id ui : String}, call'.purpose = .tab ui → result = .ok id → Settled h' s' id) :
    NoOrphans h' s' := by
  intro id j x ui hx hpurpose hreply
  unfold At at hx
  rw [hcalls] at hx
  rcases (getElem?_set_eq_some hat).mp hx with ⟨rfl, rfl⟩ | ⟨_, hold⟩
  · exact hsettled hpurpose (BackendReply.handled.inj (hhandled.symm.trans hreply))
  · exact hretains.settled (hinv id j x ui hold hpurpose hreply)

theorem NoOrphans.append (hinv : NoOrphans h s) (hretains : Retains h h' s s')
    (hcalls : s'.calls = s.calls ++ [call]) (hreply : call.reply = .unasked) : NoOrphans h' s' := by
  refine hinv.congr hretains ?_
  intro j x id ui hx hpurpose hhandled
  unfold At at hx
  rw [hcalls] at hx
  rcases getElem?_concat_eq_some.mp hx with hold | ⟨_, rfl⟩
  · exact ⟨x, hold, hpurpose, hhandled⟩
  · cases hreply.symm.trans hhandled

theorem calls_failed {call' : ConnectCall} :
    (s.failed c call').1.calls = s.calls.set c { call' with phase := .returned } := by
  unfold failed
  split
  · rfl
  · rfl

theorem NoOrphans.step (hids : Ids s) (hinv : NoOrphans h s) (hwelcome : Welcome s event)
    (htaken : Taken s event s' o) : NoOrphans (h ++ o) s' := by
  have hsame : ∀ {calls used}, Retains h (h ++ o) s { s with calls := calls, used := used } := by
    intro calls used
    exact .keeps (.refl s.manager) (fun _ hmem => hmem)
  -- a step that changes no call
  have hkept : s'.calls = s.calls → Retains h (h ++ o) s s' → NoOrphans (h ++ o) s' := by
    intro hcalls hretains
    refine hinv.congr hretains ?_
    intro j x id ui hx hpurpose hreply
    unfold At at hx
    rw [hcalls] at hx
    exact ⟨x, hx, hpurpose, hreply⟩
  cases htaken with
  | blank hfresh => exact hinv.append hsame rfl rfl
  | @connect id profile hfresh =>
    refine hinv.append ⟨fun hended => hended, ?_, fun hmem => List.mem_append_left _ hmem⟩ rfl rfl
    rintro id' ⟨owner, hmapped, hlisted⟩
    refine .inl ⟨owner, hmapped, ?_⟩
    show owner ∈ (s.manager.sessions ++ [_]).map TerminalSession.id
    rw [List.map_append]
    exact List.mem_append_left _ hlisted
  | openCommandSession profile command => exact hinv.append hsame rfl rfl
  | @failed event c call reply hat hphase hreply =>
    have hretains : Retains h (h ++ (s.failed c { call with reply := reply }).2) s
        (s.failed c { call with reply := reply }).1 := by
      obtain ⟨purpose, hop, phase, reply'⟩ := call
      cases purpose with
      | tab id => exact .keeps (.setFailed s.manager id) (fun _ hmem => hmem)
      | command command => exact hsame
    refine hinv.setCall hretains calls_failed hat ?_
    intro id ui hpurpose hhandled
    rcases hreply with rfl | ⟨error, -, rfl⟩
    · exact ⟨hpurpose, hhandled⟩
    · cases hhandled
  | asked hat hphase endpoints =>
    refine hinv.setCall (.keeps ⟨rfl, rfl, fun _ hmem => hmem⟩ (fun _ hmem => hmem)) rfl hat ?_
    rintro id ui _ ⟨⟩
  | accept hat hreply hfresh =>
    refine hinv.setCall hsame rfl hat ?_
    rintro id ui _ ⟨⟩
  | refuse hat hreply =>
    refine hinv.setCall hsame rfl hat ?_
    rintro id ui _ ⟨⟩
  | emit hopened =>
    refine hkept rfl (.keeps (.refl s.manager) ?_)
    intro event hmem
    rw [← List.append_assoc]
    exact List.mem_append_left _ hmem
  | @replyTab c call backendId ui hat hreply hphase hpurpose =>
    have hopened : call.reply.session = some backendId := BackendReply.session_of_replied hreply
    refine hinv.reply (.mapSession hids hat hpurpose hopened _) rfl hat rfl ?_
    intro id ui' _ hresult hrunning
    cases hresult
    obtain ⟨-, hlisted⟩ := hwelcome call backendId ui hat hreply hpurpose hrunning
    refine .inl ⟨ui, ?_, hlisted⟩
    show (s.manager.mapSession backendId ui).uiSessionId backendId = some ui
    rw [ConnectionManager.uiSessionId_mapSession, if_pos rfl]
  | @replyCommand c call backendId command hat hreply hphase hpurpose =>
    have hretains : Retains h (h ++ [.returned c (.ok (some backendId))]) s
        { s.setCall c { call with phase := .returned, reply := .handled (.ok backendId) } with
          manager := { s.manager with commandSessions := s.manager.commandSessions ++ [backendId] } } :=
      ⟨id, fun howned => .inl howned, fun hmem => List.mem_append_left _ hmem⟩
    refine hinv.reply hretains rfl hat rfl ?_
    intro id ui htab
    cases hpurpose.symm.trans htab
  | @late c call result hat hreply hphase =>
    refine hinv.reply hsame rfl hat rfl ?_
    intro id ui hpurpose hresult hrunning
    obtain ⟨hwaiting, -⟩ := hwelcome call id ui hat (hresult ▸ hreply) hpurpose hrunning
    exact absurd hwaiting hphase
  | @status event rest hstatuses =>
    refine hkept rfl (.keeps (.handleStatus s.manager event) ?_)
    intro event' hmem
    rw [hstatuses] at hmem
    simpa using hmem
  | closeSession id => exact hkept rfl (.closeSession hids id)
  | disconnect id => exact hkept rfl hsame
  | renameSession id title => exact hkept rfl (.keeps (.renameSession s.manager id title) (fun _ hmem => hmem))
  | heartbeat => exact hkept rfl (.keeps ⟨rfl, rfl, fun _ hmem => hmem⟩ (fun _ hmem => hmem))
  | probe id failure => exact hkept rfl (.keeps (.probeSession s.manager id failure) (fun _ hmem => hmem))

theorem no_orphans (hreach : Reaches step Welcome initial h s) : NoOrphans h s := by
  have hinv : Ids s ∧ NoOrphans h s := by
    refine hreach.invariant (I := fun h s => Ids s ∧ NoOrphans h s) ⟨.initial, ?_⟩ ?_
    · rintro id c call ui ⟨⟩
    · intro h s event s' o hinv hwelcome hstep
      have htaken := taken_of_step hstep
      exact ⟨hinv.1.step htaken, hinv.2.step hinv.1 hwelcome htaken⟩
  exact hinv.2

def webServer : Hop where
  id := "p"
  name := "web"
  host := "web"
  port := 22
  username := "me"

def filesServer : Hop := { webServer with id := "q", name := "files", host := "files" }

/-- Two logins that overlap; the terminal session of the first is closed once it runs. -/
theorem no_orphans_two_logins : ∃ h s, Reaches step Welcome initial h s ∧ .disconnect "b" ∈ h ∧
    .disconnect "d" ∉ h ∧ s.manager.uiSessionId "d" = some "c" ∧ NoOrphans h s := by
  have hconnecting : Reaches step Welcome initial _ _ :=
    .next (e := .connect "c" filesServer) (.next (e := .connect "a" webServer) .start trivial rfl) trivial rfl
  have hopened : Reaches step Welcome initial _ _ :=
    .next (e := .accept 1 "d") (.next (e := .accept 0 "b") (.next (e := .resolved 1 (.ok (.mk filesServer none)))
      (.next (e := .resolved 0 (.ok (.mk webServer none))) hconnecting trivial rfl) trivial rfl) trivial rfl)
      trivial rfl
  have hreplied := hopened.next (e := .reply 0) (by
    intro call id ui hat hreply hpurpose _
    cases hat
    cases hpurpose
    exact ⟨rfl, by decide⟩) rfl
  have hclosed := hreplied.next (e := .closeSession "a") (by exact trivial) rfl
  have hlate := hclosed.next (e := .reply 1) (by
    intro call id ui hat hreply hpurpose _
    cases hat
    cases hpurpose
    exact ⟨rfl, by decide⟩) rfl
  refine ⟨_, _, hlate, ?_, ?_, ?_, no_orphans hlate⟩
  · decide
  · decide
  · decide

/-- The terminal session is closed while the backend logs in: the reply leads to nothing, and the login
is left running. -/
theorem orphan_of_early_close : ¬∀ h s, Reaches step (fun _ _ => True) initial h s → NoOrphans h s := by
  intro hall
  obtain ⟨h, s, hreach, hh, hcalls, hhandled, hstatuses, hsessions⟩ := Reaches.exists_history step initial
    (P := fun h s => h = [.closed "a", .disconnect "a", .returned 0 (.ok none)] ∧
      s.calls = [⟨.tab "a", webServer, .returned, .handled (.ok "b")⟩] ∧ s.handled = [] ∧
      s.statuses = [] ∧ s.manager.sessions = [])
    (fun _ _ => true) (fun _ _ _ => trivial)
    [.connect "a" webServer, .resolved 0 (.ok (.mk webServer none)), .closeSession "a", .accept 0 "b",
      .reply 0] (by decide)
  have hrunning : ¬s.Ended "b" := by
    rintro ⟨event, hmem, -⟩
    rw [hhandled, hstatuses] at hmem
    cases hmem
  have hat : s.At 0 ⟨.tab "a", webServer, .returned, .handled (.ok "b")⟩ := by
    unfold At
    rw [hcalls]
    rfl
  rcases hall h s hreach "b" 0 _ "a" hat rfl rfl hrunning with ⟨ui, -, hlisted⟩ | hasked
  · unfold ConnectionManager.Listed at hlisted
    rw [hsessions] at hlisted
    cases hlisted
  · rw [hh] at hasked
    simp at hasked

end Connections

end Portix.Connection
