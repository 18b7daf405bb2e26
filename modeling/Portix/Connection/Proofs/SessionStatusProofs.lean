import Portix.Connection.Proofs.ConnectionsProofs

/-!
# The status of a terminal session

What a step makes of the statuses that are shown (`Change`): two parties set them, the backend and the
heartbeat, and a call that fails. A session that still waits for its call is connecting (`Waits`).
-/

namespace Portix.Connection

open Lib

open Ssh (ConnectionStatus ConnectionStatusEvent)

namespace ConnectionManager

variable {m : ConnectionManager} {id ui : String} {status : ConnectionStatus}
  {session : TerminalSession}

def statusOf (m : ConnectionManager) (id : String) : Option ConnectionStatus :=
  (m.sessionById id).map TerminalSession.status

theorem statusOf_eq_none : m.statusOf id = none ↔ ¬m.Listed id := by
  unfold statusOf
  rw [Option.map_eq_none_iff]
  exact sessionById_eq_none

theorem listed_of_statusOf (hstatus : m.statusOf id = some status) : m.Listed id := by
  by_contra hnot
  rw [statusOf_eq_none.mpr hnot] at hstatus
  cases hstatus

theorem statusOf_of_sessionById (hsession : m.sessionById id = some session) : m.statusOf id = some session.status := by
  unfold statusOf
  rw [hsession]
  rfl

theorem statusOf_setStatus {previous : ConnectionStatus} (hwas : m.statusOf id = some previous) :
    (m.setStatus id status).statusOf = Function.update m.statusOf id (some status) := by
  obtain ⟨session, hsession, -⟩ := Option.map_eq_some_iff.mp hwas
  funext ui
  by_cases hsame : ui = id
  · subst hsame
    rw [Function.update_self]
    exact statusOf_of_sessionById (sessionById_setStatus_self hsession)
  · rw [Function.update_of_ne hsame]
    unfold statusOf
    rw [sessionById_setStatus_ne hsame]

theorem setFailed_of_none (hsession : m.sessionById id = none) : m.setFailed id = (m, []) := by
  unfold setFailed
  rw [hsession]

theorem setFailed_of_some (hsession : m.sessionById id = some session) :
    m.setFailed id = (m.setStatus id .error, [.shown id session.status .error]) := by
  unfold setFailed
  rw [hsession]

theorem statusOf_addSession (hnew : ¬m.Listed id) (profile : Hop) :
    (m.addSession id profile).statusOf = Function.update m.statusOf id (some .connecting) := by
  have hnone : m.sessionById id = none := sessionById_eq_none.mpr hnew
  funext ui
  unfold statusOf sessionById addSession
  rw [under_append]
  by_cases hsame : ui = id
  · subst hsame
    unfold sessionById at hnone
    rw [hnone, Function.update_self, under_cons, if_pos rfl]
    rfl
  · rw [Function.update_of_ne hsame, under_cons, if_neg (Ne.symm hsame)]
    simp

theorem statusOf_closeSession (hsession : m.sessionById id = some session) :
    (m.closeSession id).1.statusOf = Function.update m.statusOf id none := by
  have hrest : ∀ ui, under TerminalSession.id ui (m.sessions.filter fun session => session.id ≠ id) =
      if decide (ui ≠ id) = true then under TerminalSession.id ui m.sessions else none := by
    intro ui
    exact under_filter (fun other => decide (other ≠ id)) m.sessions
  unfold closeSession
  rw [hsession]
  funext ui
  show (under TerminalSession.id ui (m.sessions.filter fun session => session.id ≠ id)).map _ = _
  rw [hrest]
  by_cases hsame : ui = id
  · simp [hsame]
  · simp [hsame, statusOf, sessionById]

theorem statusOf_renameSession (id title : String) : (m.renameSession id title).statusOf = m.statusOf := by
  unfold renameSession
  split
  · rfl
  · funext ui
    have hrest : under TerminalSession.id ui (m.sessions.map fun session : TerminalSession =>
        if session.id = id then { session with title := dartTrim title } else session) = _ :=
      under_map _ (by
        intro session
        split
        · rfl
        · rfl) m.sessions
    unfold statusOf sessionById
    rw [hrest, Option.map_map]
    congr 1
    funext session
    show (if session.id = id then { session with title := dartTrim title } else session).status = _
    split
    · rfl
    · rfl

end ConnectionManager

namespace Connections

variable {s s' : Connections} {h o : List ConnectionObs} {event : ConnectionEvent} {id ui : String}
  {c : Nat} {call : ConnectCall} {status previous : ConnectionStatus}

/-- A call has still to return for this session. -/
def Waits (s : Connections) (ui : String) : Prop :=
  ∃ c call, s.At c call ∧ call.purpose = .tab ui ∧ call.phase ≠ .returned

def isQuiet : ConnectionObs → Bool
  | .returned _ _ => true
  | .shown _ _ _ => false
  | .closed _ => false
  | .error _ => true
  | .sessionLost _ => false
  | .commandStatus _ _ _ => true
  | .disconnect _ => true
  | .input _ _ => true

/-- What a step makes of the statuses. -/
inductive Change (s : Connections) : ConnectionEvent → Connections → List ConnectionObs → Prop where
  | quiet {event : ConnectionEvent} {s' : Connections} {o : List ConnectionObs}
      (hsame : s'.manager.statusOf = s.manager.statusOf) (hquiet : ∀ x ∈ o, isQuiet x = true) :
      Change s event s' o
  | added {s' : Connections} {ui : String} {profile : Hop} (hnew : ui ∉ s.used)
      (hnow : s'.manager.statusOf = Function.update s.manager.statusOf ui (some .connecting)) :
      Change s (.connect ui profile) s' []
  | closed {s' : Connections} {ui backendId : String} (hlisted : s.manager.Listed ui)
      (hnow : s'.manager.statusOf = Function.update s.manager.statusOf ui none) :
      Change s (.closeSession ui) s' [.closed ui, .disconnect backendId]
  | failed {event : ConnectionEvent} {s' : Connections} {c : Nat} {ui : String}
      {previous : ConnectionStatus} {result : Except String (Option String)}
      (hwas : s.manager.statusOf ui = some previous)
      (hnow : s'.manager.statusOf = Function.update s.manager.statusOf ui (some .error))
      (hwaits : s.Waits ui) (hover : ¬s'.Waits ui) :
      Change s event s' [.shown ui previous .error, .returned c result]
  | told {s' : Connections} {event : ConnectionStatusEvent} {rest : List ConnectionStatusEvent}
      {ui : String} {previous : ConnectionStatus} (hstatuses : s.statuses = event :: rest)
      (hmapped : s.manager.uiSessionId event.sessionId = some ui)
      (hwas : s.manager.statusOf ui = some previous)
      (hnow : s'.manager.statusOf = Function.update s.manager.statusOf ui (some event.status)) :
      Change s .status s'
        (.shown ui previous event.status :: ConnectionManager.dropObs ui previous event)
  | dead {s' : Connections} {ui failure backendId : String} {message : String}
      (hwas : s.manager.statusOf ui = some .connected)
      (hnow : s'.manager.statusOf = Function.update s.manager.statusOf ui (some .error)) :
      Change s (.probe ui (some failure)) s'
        [.shown ui .connected .error, .error ⟨message, some ui⟩, .sessionLost ui, .disconnect backendId]

theorem not_waits_of_returned (hids : Ids s) {call' : ConnectCall} (hat : s.At c call)
    (hpurpose : call.purpose = .tab ui) (hcalls : s'.calls = s.calls.set c call')
    (hphase : call'.phase = .returned) : ¬s'.Waits ui := by
  rintro ⟨j, x, hx, htab, hopen⟩
  unfold At at hx
  rw [hcalls] at hx
  rcases (getElem?_set_eq_some hat).mp hx with ⟨rfl, rfl⟩ | ⟨hne, hold⟩
  · exact hopen hphase
  · exact hne (hids.tab_unique hold hat htab hpurpose)

theorem change_failed (hids : Ids s) {reply : BackendReply} (hat : s.At c call) (hphase : call.phase ≠ .returned) :
    Change s event (s.failed c { call with reply := reply }).1
      (s.failed c { call with reply := reply }).2 := by
  obtain ⟨purpose, hop, phase, reply'⟩ := call
  cases purpose with
  | command command => exact .quiet rfl (by simp [failed, failureObs, isQuiet])
  | tab ui =>
    show Change s event { s.setCall c _ with manager := (s.manager.setFailed ui).1 }
      ((s.manager.setFailed ui).2 ++ [.returned c _])
    cases hsession : s.manager.sessionById ui with
    | none =>
      rw [ConnectionManager.setFailed_of_none hsession]
      exact .quiet rfl (by simp [isQuiet])
    | some session =>
      rw [ConnectionManager.setFailed_of_some hsession]
      have hwas := ConnectionManager.statusOf_of_sessionById hsession
      exact .failed hwas (ConnectionManager.statusOf_setStatus hwas) ⟨c, _, hat, rfl, hphase⟩
        (not_waits_of_returned hids hat rfl rfl rfl)

theorem Ids.not_listed_of_new (hids : Ids s) (hnew : ui ∉ s.used) : ¬s.manager.Listed ui := by
  intro hlisted
  obtain ⟨c, call, hat, hpurpose⟩ := hids.tab_of_listed hlisted
  exact hnew (hids.tab_used hat hpurpose)

theorem Ids.not_listed (hids : Ids s) {event : ConnectionStatusEvent}
    (hmem : event ∈ s.handled ++ s.statuses) : ¬s.manager.Listed event.sessionId := by
  intro hlisted
  obtain ⟨c, call, hat, hopened⟩ := hids.sent hmem
  obtain ⟨c', call', hat', hpurpose⟩ := hids.tab_of_listed hlisted
  exact hids.apart hat hat' hopened hpurpose rfl

theorem change_told (hids : Ids s) {event : ConnectionStatusEvent} {rest : List ConnectionStatusEvent}
    (hstatuses : s.statuses = event :: rest) (hmanager : s'.manager = (s.manager.handleStatus event).1) :
    Change s .status s' (s.manager.handleStatus event).2 := by
  have hmem : event ∈ s.handled ++ s.statuses := by
    rw [hstatuses]
    simp
  unfold ConnectionManager.handleStatus at hmanager ⊢
  split
  · rename_i hcommand
    rw [if_pos hcommand] at hmanager
    refine .quiet ?_ (by simp [isQuiet])
    rw [hmanager]
    split
    · rfl
    · rfl
  · rename_i hcommand
    rw [if_neg hcommand] at hmanager
    unfold ConnectionManager.handleSessionStatus at hmanager ⊢
    cases hmapped : s.manager.uiSessionId event.sessionId with
    | none =>
      have hnone := ConnectionManager.sessionById_eq_none.mpr (hids.not_listed hmem)
      rw [hmapped, Option.getD_none, hnone] at hmanager
      rw [Option.getD_none, hnone]
      exact .quiet (by rw [hmanager]) (by simp)
    | some ui =>
      rw [hmapped, Option.getD_some] at hmanager
      rw [Option.getD_some]
      cases hsession : s.manager.sessionById ui with
      | none =>
        rw [hsession] at hmanager
        exact .quiet (by rw [hmanager]) (by simp)
      | some session =>
        rw [hsession] at hmanager
        have hwas := ConnectionManager.statusOf_of_sessionById hsession
        refine .told hstatuses hmapped hwas ?_
        rw [hmanager]
        exact ConnectionManager.statusOf_setStatus hwas

theorem change_probe {failure : Option String} (hmanager : s'.manager = (s.manager.probeSession ui failure).1) :
    Change s (.probe ui failure) s' (s.manager.probeSession ui failure).2 := by
  cases failure with
  | none => exact .quiet (by rw [hmanager]; rfl) (by simp [ConnectionManager.probeSession])
  | some message =>
    unfold ConnectionManager.probeSession ConnectionManager.markSessionDead at hmanager ⊢
    cases hsession : (s.manager.endProbe ui).sessionById ui with
    | none =>
      rw [hsession] at hmanager
      exact .quiet (by rw [hmanager]; rfl) (by simp)
    | some session =>
      rw [hsession] at hmanager
      by_cases hconnected : session.status = .connected
      · have hwas : s.manager.statusOf ui = some .connected := by
          rw [← hconnected]
          exact ConnectionManager.statusOf_of_sessionById hsession
        simp only [if_pos hconnected] at hmanager ⊢
        refine .dead hwas ?_
        rw [hmanager]
        exact ConnectionManager.statusOf_setStatus (m := s.manager.endProbe ui) hwas
      · simp only [if_neg hconnected] at hmanager ⊢
        exact .quiet (by rw [hmanager]; rfl) (by simp)

theorem change_of_taken (hids : Ids s) (htaken : Taken s event s' o) : Change s event s' o := by
  cases htaken with
  | blank hfresh => exact .quiet rfl (by simp [isQuiet])
  | @connect id profile hfresh =>
    exact .added hfresh (ConnectionManager.statusOf_addSession (hids.not_listed_of_new hfresh) profile)
  | openCommandSession profile command => exact .quiet rfl (by simp)
  | failed hat hphase hreply => exact change_failed hids hat hphase
  | asked hat hphase endpoints => exact .quiet rfl (by simp)
  | accept hat hreply hfresh => exact .quiet rfl (by simp)
  | refuse hat hreply => exact .quiet rfl (by simp)
  | emit hopened => exact .quiet rfl (by simp)
  | replyTab hat hreply hphase hpurpose =>
    refine .quiet rfl ?_
    intro x hmem
    rcases List.mem_append.mp hmem with hinput | hreturned
    · obtain ⟨input, -, rfl⟩ := Option.map_eq_some_iff.mp (Option.mem_toList.mp hinput)
      rfl
    · rw [List.mem_singleton.mp hreturned]
      rfl
  | replyCommand hat hreply hphase hpurpose => exact .quiet rfl (by simp [isQuiet])
  | late hat hreply hphase => exact .quiet rfl (by simp)
  | status hstatuses => exact change_told hids hstatuses rfl
  | closeSession id =>
    cases hsession : s.manager.sessionById id with
    | none =>
      rw [ConnectionManager.closeSession_of_none hsession]
      exact .quiet rfl (by simp)
    | some session =>
      rw [(ConnectionManager.closeSession_of_some hsession).2.1]
      exact .closed (ConnectionManager.listed_of_sessionById hsession)
        (ConnectionManager.statusOf_closeSession hsession)
  | disconnect id => exact .quiet rfl (by simp [isQuiet])
  | renameSession id title => exact .quiet (ConnectionManager.statusOf_renameSession id title) (by simp)
  | heartbeat => exact .quiet rfl (by simp)
  | probe id failure => exact change_probe rfl

theorem waits_of_setCall {call' : ConnectCall} (hwaits : s'.Waits ui) (hat : s.At c call)
    (hcalls : s'.calls = s.calls.set c call') (hpurpose : call'.purpose = call.purpose)
    (hphase : call'.phase ≠ .returned → call.phase ≠ .returned) : s.Waits ui := by
  obtain ⟨j, x, hx, htab, hopen⟩ := hwaits
  unfold At at hx
  rw [hcalls] at hx
  rcases (getElem?_set_eq_some hat).mp hx with ⟨rfl, rfl⟩ | ⟨_, hold⟩
  · exact ⟨j, call, hat, hpurpose.symm.trans htab, hphase hopen⟩
  · exact ⟨j, x, hold, htab, hopen⟩

theorem waits_of_append (hwaits : s'.Waits ui) (hcalls : s'.calls = s.calls ++ [call]) :
    s.Waits ui ∨ (call.purpose = .tab ui ∧ call.phase ≠ .returned) := by
  obtain ⟨j, x, hx, htab, hopen⟩ := hwaits
  unfold At at hx
  rw [hcalls] at hx
  rcases getElem?_concat_eq_some.mp hx with hold | ⟨_, rfl⟩
  · exact .inl ⟨j, x, hold, htab, hopen⟩
  · exact .inr ⟨htab, hopen⟩

theorem waits_of_taken (htaken : Taken s event s' o) (hwaits : s'.Waits ui) :
    s.Waits ui ∨ (ui ∉ s.used ∧ ∃ profile, s'.manager = s.manager.addSession ui profile) := by
  cases htaken with
  | blank hfresh =>
    rcases waits_of_append hwaits rfl with hbefore | ⟨-, hopen⟩
    · exact .inl hbefore
    · exact absurd rfl hopen
  | @connect id profile hfresh =>
    rcases waits_of_append hwaits rfl with hbefore | ⟨htab, -⟩
    · exact .inl hbefore
    · cases htab
      exact .inr ⟨hfresh, profile, rfl⟩
  | openCommandSession profile command =>
    rcases waits_of_append hwaits rfl with hbefore | ⟨htab, -⟩
    · exact .inl hbefore
    · cases htab
  | failed hat hphase hreply => exact .inl (waits_of_setCall hwaits hat calls_failed rfl (fun _ => hphase))
  | asked hat hphase endpoints =>
    refine .inl (waits_of_setCall hwaits hat rfl rfl ?_)
    intro _ hreturned
    cases hphase.symm.trans hreturned
  | accept hat hreply hfresh =>
    exact .inl (waits_of_setCall (s := s) hwaits hat rfl rfl id)
  | refuse hat hreply => exact .inl (waits_of_setCall hwaits hat rfl rfl id)
  | replyTab hat hreply hphase hpurpose =>
    exact .inl (waits_of_setCall hwaits hat rfl rfl (fun hopen => absurd rfl hopen))
  | replyCommand hat hreply hphase hpurpose =>
    exact .inl (waits_of_setCall hwaits hat rfl rfl (fun hopen => absurd rfl hopen))
  | late hat hreply hphase => exact .inl (waits_of_setCall hwaits hat rfl rfl id)
  | emit hopened => exact .inl hwaits
  | status hstatuses => exact .inl hwaits
  | closeSession id => exact .inl hwaits
  | disconnect id => exact .inl hwaits
  | renameSession id title => exact .inl hwaits
  | heartbeat => exact .inl hwaits
  | probe id failure => exact .inl hwaits

theorem Ids.not_mapped (hids : Ids s) (hwaits : s.Waits ui) : s.manager.uiSessionId id ≠ some ui := by
  intro hmapped
  obtain ⟨j, x, hx, htab, hopen⟩ := hwaits
  obtain ⟨c, call, hat, hpurpose, -, hphase⟩ := hids.mapped (ConnectionManager.mem_of_uiSessionId hmapped)
  obtain rfl := hids.tab_unique hx hat htab hpurpose
  cases hx.symm.trans hat
  exact hopen hphase

/-- A session that waits is connecting. -/
def Connecting (s : Connections) : Prop :=
  ∀ ui status, s.Waits ui → s.manager.statusOf ui = some status → status = .connecting

theorem Connecting.update {other : String} {now : Option ConnectionStatus} (hinv : Connecting s)
    (hwaits : s.Waits ui) (hnow : s'.manager.statusOf = Function.update s.manager.statusOf other now)
    (hstatus : s'.manager.statusOf ui = some status) (hsame : ui = other → now = some .connecting) :
    status = .connecting := by
  rw [hnow] at hstatus
  by_cases hother : ui = other
  · rw [hother, Function.update_self, hsame hother] at hstatus
    exact (Option.some.inj hstatus).symm
  · rw [Function.update_of_ne hother] at hstatus
    exact hinv ui status hwaits hstatus

theorem Connecting.step (hids : Ids s) (hinv : Connecting s) (htaken : Taken s event s' o) : Connecting s' := by
  intro ui status hwaits hstatus
  rcases waits_of_taken htaken hwaits with hbefore | ⟨hnew, profile, hmanager⟩
  · cases change_of_taken hids htaken with
    | quiet hsame hquiet =>
      rw [hsame] at hstatus
      exact hinv ui status hbefore hstatus
    | added hnew hnow => exact hinv.update hbefore hnow hstatus (fun _ => rfl)
    | @closed _ other _ hlisted hnow =>
      by_cases hsame : ui = other
      · rw [hnow, hsame, Function.update_self] at hstatus
        cases hstatus
      · exact hinv.update hbefore hnow hstatus (fun hother => absurd hother hsame)
    | failed hwas hnow hwaits' hover =>
      refine hinv.update hbefore hnow hstatus ?_
      rintro rfl
      exact absurd hwaits hover
    | told hstatuses hmapped hwas hnow =>
      refine hinv.update hbefore hnow hstatus ?_
      rintro rfl
      exact absurd hmapped (hids.not_mapped hbefore)
    | dead hwas hnow =>
      refine hinv.update hbefore hnow hstatus ?_
      rintro rfl
      cases hinv ui .connected hbefore hwas
  · rw [hmanager, ConnectionManager.statusOf_addSession (hids.not_listed_of_new hnew), Function.update_self] at hstatus
    exact (Option.some.inj hstatus).symm

variable {G : Connections → ConnectionEvent → Prop}

theorem connecting_of_reaches (hreach : Reaches step G initial h s) : Connecting s := by
  have hinv : Ids s ∧ Connecting s := by
    refine hreach.invariant (I := fun _ s => Ids s ∧ Connecting s) ⟨.initial, ?_⟩ ?_
    · rintro ui status ⟨c, call, hat, -⟩
      cases hat
    · intro h s event s' o hinv _ hstep
      have htaken := taken_of_step hstep
      exact ⟨hinv.1.step htaken, hinv.2.step hinv.1 htaken⟩
  exact hinv.2

variable {x : ConnectionObs}

theorem linkOf_of_quiet (hquiet : isQuiet x = true) : linkOf id x = none := by
  cases x with
  | shown ui previous status => cases hquiet
  | sessionLost ui => cases hquiet
  | closed ui => rfl
  | returned c result => rfl
  | error event => rfl
  | commandStatus sessionId status message => rfl
  | disconnect ui => rfl
  | input ui data => rfl

theorem linked_append (hnone : ∀ x ∈ o, linkOf id x = none) : Linked (h ++ o) id ↔ Linked h id := by
  have hnil : o.filterMap (linkOf id) = [] := List.filterMap_eq_nil_iff.mpr hnone
  unfold Linked
  rw [List.filterMap_append, hnil, List.append_nil]

theorem linked_shown (hprevious : previous ≠ .connected) (hnone : ∀ x ∈ o, linkOf id x = none) :
    Linked (h ++ .shown id previous .connected :: o) id := by
  have hnil : o.filterMap (linkOf id) = [] := List.filterMap_eq_nil_iff.mpr hnone
  have hlink : linkOf id (.shown id previous .connected) = some true := if_pos ⟨rfl, hprevious, rfl⟩
  unfold Linked
  rw [List.filterMap_append, List.filterMap_cons, hlink, hnil]
  exact List.getLast?_concat

theorem linkOf_shown_ne {other : String} (hne : id ≠ other) : linkOf id (.shown other previous status) = none :=
  if_neg fun hand => hne hand.1.symm

theorem linkOf_shown_connected : linkOf id (.shown ui .connected status) = none :=
  if_neg fun hand => hand.2.1 rfl

theorem mem_dropObs {event : ConnectionStatusEvent} (hmem : x ∈ ConnectionManager.dropObs ui previous event) :
    isUnexpectedDrop event.status = true ∧
      ((∃ error, x = .error error) ∨ (x = .sessionLost ui ∧ previous = .connected)) := by
  unfold ConnectionManager.dropObs at hmem
  split at hmem
  · rename_i hdrop
    refine ⟨hdrop.2, ?_⟩
    rcases List.mem_cons.mp hmem with herror | hlost
    · exact .inl ⟨_, herror⟩
    · split at hlost
      · rename_i hprevious
        exact .inr ⟨List.mem_singleton.mp hlost, hprevious⟩
      · cases hlost
  · cases hmem

theorem dropObs_connected {event : ConnectionStatusEvent} (hdrop : isUnexpectedDrop event.status = true) :
    ConnectionManager.dropObs ui .connected event =
      [.error ⟨ConnectionManager.dropMessage event.message, some ui⟩, .sessionLost ui] :=
  if_pos ⟨rfl, hdrop⟩

theorem dropObs_of_connected {event : ConnectionStatusEvent} (hstatus : event.status = .connected) :
    ConnectionManager.dropObs ui previous event = [] := by
  refine if_neg ?_
  rintro ⟨_, hdrop⟩
  rw [hstatus] at hdrop
  cases hdrop

theorem linkOf_dropObs_ne {event : ConnectionStatusEvent} (hne : id ≠ ui)
    (hmem : x ∈ ConnectionManager.dropObs ui previous event) : linkOf id x = none := by
  rcases (mem_dropObs hmem).2 with ⟨error, rfl⟩ | ⟨rfl, -⟩
  · rfl
  · exact if_neg (Ne.symm hne)

/-- A session that is connected has got connected since it was last lost. -/
def Link (h : List ConnectionObs) (s : Connections) : Prop :=
  ∀ id, s.manager.statusOf id = some .connected → Linked h id

theorem Link.step (hinv : Link h s) (hchange : Change s event s' o) : Link (h ++ o) s' := by
  intro id hconnected
  cases hchange with
  | quiet hsame hquiet =>
    rw [hsame] at hconnected
    exact (linked_append fun x hx => linkOf_of_quiet (hquiet x hx)).mpr (hinv id hconnected)
  | @added _ ui _ hnew hnow =>
    rw [List.append_nil]
    by_cases hsame : id = ui
    · rw [hnow, hsame, Function.update_self] at hconnected
      cases hconnected
    · rw [hnow, Function.update_of_ne hsame] at hconnected
      exact hinv id hconnected
  | @closed _ ui _ hlisted hnow =>
    by_cases hsame : id = ui
    · rw [hnow, hsame, Function.update_self] at hconnected
      cases hconnected
    · rw [hnow, Function.update_of_ne hsame] at hconnected
      refine (linked_append ?_).mpr (hinv id hconnected)
      simp [linkOf]
  | @failed _ _ _ ui _ _ hwas hnow hwaits hover =>
    by_cases hsame : id = ui
    · rw [hnow, hsame, Function.update_self] at hconnected
      cases hconnected
    · rw [hnow, Function.update_of_ne hsame] at hconnected
      refine (linked_append ?_).mpr (hinv id hconnected)
      simp [linkOf]
  | @told _ event rest ui previous hstatuses hmapped hwas hnow =>
    by_cases hsame : id = ui
    · subst hsame
      rw [hnow, Function.update_self] at hconnected
      have hstatus : event.status = .connected := Option.some.inj hconnected
      rw [dropObs_of_connected hstatus, hstatus]
      by_cases hprevious : previous = .connected
      · subst hprevious
        refine (linked_append ?_).mpr (hinv id hwas)
        intro x hx
        rw [List.mem_singleton.mp hx]
        exact linkOf_shown_connected
      · exact linked_shown hprevious (fun x hx => by cases hx)
    · rw [hnow, Function.update_of_ne hsame] at hconnected
      refine (linked_append ?_).mpr (hinv id hconnected)
      intro x hx
      rcases List.mem_cons.mp hx with rfl | hdrop
      · exact linkOf_shown_ne hsame
      · exact linkOf_dropObs_ne hsame hdrop
  | @dead _ ui _ _ _ hwas hnow =>
    by_cases hsame : id = ui
    · rw [hnow, hsame, Function.update_self] at hconnected
      cases hconnected
    · rw [hnow, Function.update_of_ne hsame] at hconnected
      refine (linked_append ?_).mpr (hinv id hconnected)
      simp [linkOf, Ne.symm hsame]

theorem link_of_reaches (hreach : Reaches step G initial h s) : Link h s := by
  have hinv : Ids s ∧ Link h s := by
    refine hreach.invariant (I := fun h s => Ids s ∧ Link h s) ⟨.initial, ?_⟩ ?_
    · rintro id ⟨⟩
    · intro h s event s' o hinv _ hstep
      have htaken := taken_of_step hstep
      exact ⟨hinv.1.step htaken, hinv.2.step (change_of_taken hinv.1 htaken)⟩
  exact hinv.2

theorem split_of_lost {o1 o2 : List ConnectionObs} (hchange : Change s event s' o)
    (hsplit : o = o1 ++ .sessionLost id :: o2) : s.manager.statusOf id = some .connected ∧
      ∃ status error, o1 = [.shown id .connected status, .error error] := by
  have hmem : .sessionLost id ∈ o := by
    rw [hsplit]
    simp
  have hthree : ∀ {ui status error rest}, o = .shown ui .connected status :: .error error ::
      .sessionLost ui :: rest → .sessionLost id ∉ rest →
      id = ui ∧ o1 = [.shown ui .connected status, .error error] := by
    intro ui status error rest ho hrest
    rw [ho] at hsplit
    match o1, hsplit with
    | [], hsplit => cases (List.cons.inj hsplit).1
    | [_], hsplit => cases (List.cons.inj (List.cons.inj hsplit).2).1
    | [_, _], hsplit =>
      obtain ⟨hfirst, hsplit⟩ := List.cons.inj hsplit
      obtain ⟨hsecond, hsplit⟩ := List.cons.inj hsplit
      rw [← hfirst, ← hsecond]
      exact ⟨(ConnectionObs.sessionLost.inj (List.cons.inj hsplit).1).symm, rfl⟩
    | _ :: _ :: _ :: later, hsplit =>
      have hlater := (List.cons.inj (List.cons.inj (List.cons.inj hsplit).2).2).2
      exact absurd (by rw [hlater]; simp) hrest
  cases hchange with
  | quiet hsame hquiet => cases hquiet _ hmem
  | added hnew hnow => cases hmem
  | closed hlisted hnow => simp at hmem
  | failed hwas hnow hwaits hover => simp at hmem
  | @told _ event rest ui previous hstatuses hmapped hwas hnow =>
    rcases List.mem_cons.mp hmem with hshown | hdropped
    · cases hshown
    · obtain ⟨hdrop, ⟨error, herror⟩ | ⟨hlost, rfl⟩⟩ := mem_dropObs hdropped
      · cases herror
      · rw [dropObs_connected hdrop] at hthree
        obtain ⟨rfl, ho1⟩ := hthree rfl (by simp)
        exact ⟨hwas, _, _, ho1⟩
  | dead hwas hnow =>
    obtain ⟨rfl, ho1⟩ := hthree rfl (by simp)
    exact ⟨hwas, _, _, ho1⟩

/-- Whatever drops while connected is reported as lost. -/
def Reported (h : List ConnectionObs) : Prop :=
  ∀ h1 h2 id status, h = h1 ++ .shown id .connected status :: h2 → isUnexpectedDrop status = true →
    ∃ message h3, h2 = .error ⟨message, some id⟩ :: .sessionLost id :: h3

theorem Reported.append (hh : Reported h) (ho : Reported o) : Reported (h ++ o) := by
  intro h1 h2 id status hsplit hdrop
  rcases List.append_eq_append_iff.mp hsplit with ⟨o1, -, hlater⟩ | ⟨rest, hbefore, hlater⟩
  · exact ho o1 h2 id status hlater hdrop
  · cases rest with
    | nil => exact ho [] h2 id status hlater.symm hdrop
    | cons x rest =>
      cases hlater
      obtain ⟨message, h3, rfl⟩ := hh h1 rest id status hbefore hdrop
      exact ⟨message, h3 ++ o, rfl⟩

theorem Reported.of_head {rest : List ConnectionObs} (hrest : ∀ id previous status, .shown id previous status ∉ rest)
    (hhead : ∀ id status, x = .shown id .connected status → isUnexpectedDrop status = true →
      ∃ message h3, rest = .error ⟨message, some id⟩ :: .sessionLost id :: h3) :
    Reported (x :: rest) := by
  intro h1 h2 id status hsplit hdrop
  cases h1 with
  | nil =>
    cases hsplit
    exact hhead id status rfl hdrop
  | cons y h1 =>
    refine absurd ?_ (hrest id .connected status)
    rw [(List.cons.inj hsplit).2]
    simp

theorem Reported.of_change (hconnecting : Connecting s) (hchange : Change s event s' o) : Reported o := by
  cases hchange with
  | quiet hsame hquiet =>
    intro h1 h2 id status hsplit _
    have hshown := hquiet (.shown id .connected status) (by rw [hsplit]; simp)
    cases hshown
  | added hnew hnow =>
    intro h1 h2 id status hsplit _
    simp at hsplit
  | closed hlisted hnow => exact .of_head (by simp) (by simp)
  | @failed _ _ _ ui previous _ hwas hnow hwaits hover =>
    refine .of_head (by simp) ?_
    intro id status hshown _
    cases hshown
    cases hconnecting ui .connected hwaits hwas
  | told hstatuses hmapped hwas hnow =>
    refine .of_head ?_ ?_
    · intro id previous status hmem
      rcases (mem_dropObs hmem).2 with ⟨error, herror⟩ | ⟨hlost, -⟩
      · cases herror
      · cases hlost
    · intro id status hshown hdrop
      cases hshown
      exact ⟨_, [], dropObs_connected hdrop⟩
  | dead hwas hnow =>
    refine .of_head (by simp) ?_
    intro id status hshown _
    cases hshown
    exact ⟨_, _, rfl⟩

theorem reported_of_reaches (hreach : Reaches step G initial h s) : Reported h := by
  have hinv : (Ids s ∧ Connecting s) ∧ Reported h := by
    refine hreach.invariant (I := fun h s => (Ids s ∧ Connecting s) ∧ Reported h) ?_ ?_
    · refine ⟨⟨.initial, connecting_of_reaches (G := G) .start⟩, ?_⟩
      intro h1 h2 id status hsplit _
      simp at hsplit
    · intro h s event s' o hinv _ hstep
      have htaken := taken_of_step hstep
      obtain ⟨⟨hids, hconnecting⟩, hreported⟩ := hinv
      exact ⟨⟨hids.step htaken, hconnecting.step hids htaken⟩,
        hreported.append (.of_change hconnecting (change_of_taken hids htaken))⟩
  exact hinv.2

/-- An id that was listed and is not any more. -/
def Gone (s : Connections) (id : String) : Prop :=
  Ids s ∧ id ∈ s.used ∧ s.manager.statusOf id = none

theorem used_subset (htaken : Taken s event s' o) : s.used ⊆ s'.used := by
  cases htaken with
  | blank hfresh => exact List.subset_append_left _ _
  | connect hfresh => exact List.subset_append_left _ _
  | @failed event c call reply hat hphase hreply =>
    unfold failed
    split
    · exact List.Subset.refl _
    · exact List.Subset.refl _
  | accept hat hreply hfresh => exact List.subset_append_left _ _
  | openCommandSession profile command => exact List.Subset.refl _
  | asked hat hphase endpoints => exact List.Subset.refl _
  | refuse hat hreply => exact List.Subset.refl _
  | emit hopened => exact List.Subset.refl _
  | replyTab hat hreply hphase hpurpose => exact List.Subset.refl _
  | replyCommand hat hreply hphase hpurpose => exact List.Subset.refl _
  | late hat hreply hphase => exact List.Subset.refl _
  | status hstatuses => exact List.Subset.refl _
  | closeSession id => exact List.Subset.refl _
  | disconnect id => exact List.Subset.refl _
  | renameSession id title => exact List.Subset.refl _
  | heartbeat => exact List.Subset.refl _
  | probe id failure => exact List.Subset.refl _

theorem Gone.step (hgone : Gone s id) (htaken : Taken s event s' o) : Gone s' id ∧ ∀ x ∈ o, x ≠ .sessionLost id := by
  obtain ⟨hids, hused, hnone⟩ := hgone
  have hchange := change_of_taken hids htaken
  have hother : ∀ {ui now}, s'.manager.statusOf = Function.update s.manager.statusOf ui now →
      ui ≠ id → s'.manager.statusOf id = none := by
    intro ui now hnow hne
    rw [hnow, Function.update_of_ne (Ne.symm hne)]
    exact hnone
  have hlisted : ∀ {ui status}, s.manager.statusOf ui = some status → ui ≠ id := by
    rintro ui status hwas rfl
    cases hnone.symm.trans hwas
  refine ⟨⟨hids.step htaken, used_subset htaken hused, ?_⟩, ?_⟩
  · cases hchange with
    | quiet hsame hquiet => rw [hsame, hnone]
    | added hnew hnow =>
      refine hother hnow ?_
      rintro rfl
      exact hnew hused
    | closed hmem hnow =>
      refine hother hnow ?_
      rintro rfl
      exact ConnectionManager.statusOf_eq_none.mp hnone hmem
    | failed hwas hnow hwaits hover => exact hother hnow (hlisted hwas)
    | told hstatuses hmapped hwas hnow => exact hother hnow (hlisted hwas)
    | dead hwas hnow => exact hother hnow (hlisted hwas)
  · rintro x hmem rfl
    obtain ⟨o1, o2, hsplit⟩ := List.append_of_mem hmem
    exact hlisted (split_of_lost hchange hsplit).1 rfl

theorem gone_of_closed (hids : Ids s) (htaken : Taken s event s' o) (hmem : .closed id ∈ o) :
    Gone s' id ∧ ∀ x ∈ o, x ≠ .sessionLost id := by
  cases change_of_taken hids htaken with
  | quiet hsame hquiet => cases hquiet _ hmem
  | added hnew hnow => cases hmem
  | @closed _ ui _ hlisted hnow =>
    have hui : id = ui := by simpa using hmem
    subst hui
    obtain ⟨c, call, hat, hpurpose⟩ := hids.tab_of_listed hlisted
    refine ⟨⟨hids.step htaken, used_subset htaken (hids.tab_used hat hpurpose), ?_⟩, by simp⟩
    rw [hnow, Function.update_self]
  | failed hwas hnow hwaits hover => simp at hmem
  | told hstatuses hmapped hwas hnow =>
    rcases List.mem_cons.mp hmem with hshown | hdropped
    · cases hshown
    · rcases (mem_dropObs hdropped).2 with ⟨error, herror⟩ | ⟨hlost, -⟩
      · cases herror
      · cases hlost
  | dead hwas hnow => simp at hmem

theorem mapped_of_taken (hids : Ids s) (htaken : Taken s event s' o)
    (hmem : (id, ui) ∈ s.manager.backendToUiSessionIds) (hlisted : s'.manager.Listed ui) :
    (id, ui) ∈ s'.manager.backendToUiSessionIds := by
  cases htaken with
  | @failed event c call reply hat hphase hreply =>
    unfold failed
    split
    · exact (ConnectionManager.Keeps.setFailed s.manager _).map ▸ hmem
    · exact hmem
  | @replyTab c call backendId owner hat hreply hphase hpurpose =>
    refine List.mem_append_left _ (List.mem_filter.mpr ⟨hmem, decide_eq_true ?_⟩)
    rintro rfl
    obtain ⟨c', call', hat', -, hhandled, -⟩ := hids.mapped hmem
    obtain rfl := hids.session_unique hat hat' (by rw [hreply]; rfl) (by rw [hhandled]; rfl)
    rw [Option.some.inj (hat.symm.trans hat'), hhandled] at hreply
    cases hreply
  | status hstatuses => exact (ConnectionManager.Keeps.handleStatus s.manager _).map ▸ hmem
  | closeSession closed =>
    cases hsession : s.manager.sessionById closed with
    | none =>
      rw [ConnectionManager.closeSession_of_none hsession]
      exact hmem
    | some session =>
      have hleft := (ConnectionManager.closeSession_of_some hsession).1
      have hne : ui ≠ closed := by
        change ui ∈ (s.manager.closeSession closed).1.ids at hlisted
        rw [hleft] at hlisted
        exact of_decide_eq_true (List.mem_filter.mp hlisted).2
      unfold ConnectionManager.closeSession
      rw [hsession]
      refine List.mem_filter.mpr ⟨hmem, decide_eq_true fun hknown => hne ?_⟩
      exact hids.mapped_eq hmem (ConnectionManager.mem_of_backendSessionId hknown.symm)
  | renameSession closed title => exact (ConnectionManager.Keeps.renameSession s.manager _ _).map ▸ hmem
  | probe probed failure => exact (ConnectionManager.Keeps.probeSession s.manager _ _).map ▸ hmem
  | _ => exact hmem

theorem connected_of_change (hchange : Change s event s' o) (hconnected : s'.manager.statusOf ui = some .connected) :
    s.manager.statusOf ui = some .connected ∨ ∃ id, s.manager.uiSessionId id = some ui := by
  have hother : ∀ {changed now}, s'.manager.statusOf = Function.update s.manager.statusOf changed now →
      now ≠ some .connected → s.manager.statusOf ui = some .connected := by
    intro changed now hnow hne
    rw [hnow] at hconnected
    by_cases hsame : ui = changed
    · rw [hsame, Function.update_self] at hconnected
      exact absurd hconnected hne
    · rwa [Function.update_of_ne hsame] at hconnected
  cases hchange with
  | quiet hsame hquiet => exact .inl (hsame ▸ hconnected)
  | added hnew hnow => exact .inl (hother hnow (by simp))
  | closed hlisted hnow => exact .inl (hother hnow (by simp))
  | failed hwas hnow hwaits hover => exact .inl (hother hnow (by simp))
  | @told _ event rest changed previous hstatuses hmapped hwas hnow =>
    by_cases hsame : ui = changed
    · exact .inr ⟨_, hsame ▸ hmapped⟩
    · rw [hnow, Function.update_of_ne hsame] at hconnected
      exact .inl hconnected
  | dead hwas hnow => exact .inl (hother hnow (by simp))

/-- The session of the backend that a connected session belongs to is known. -/
def Known (s : Connections) : Prop :=
  ∀ ui, s.manager.statusOf ui = some .connected → ∃ id, (id, ui) ∈ s.manager.backendToUiSessionIds

theorem known_of_reaches (hreach : Reaches step G initial h s) : Known s := by
  refine (hreach.invariant (I := fun _ s => Ids s ∧ Known s) ⟨.initial, ?_⟩ ?_).2
  · rintro ui ⟨⟩
  · intro h s event s' o hinv _ hstep
    have htaken := taken_of_step hstep
    refine ⟨hinv.1.step htaken, fun ui hconnected => ?_⟩
    have hlisted := ConnectionManager.listed_of_statusOf hconnected
    have hwas : ∃ id, (id, ui) ∈ s.manager.backendToUiSessionIds := by
      rcases connected_of_change (change_of_taken hinv.1 htaken) hconnected with hbefore | ⟨id, hmapped⟩
      · exact hinv.2 ui hbefore
      · exact ⟨id, ConnectionManager.mem_of_uiSessionId hmapped⟩
    obtain ⟨id, hmem⟩ := hwas
    exact ⟨id, mapped_of_taken hinv.1 htaken hmem hlisted⟩

variable {session : TerminalSession}

theorem lost_of_probe {m : ConnectionManager} (hsession : m.sessionById id = some session)
    (hconnected : session.status = .connected) (message : String) :
    .sessionLost id ∈ (m.probeSession id (some message)).2 := by
  have hprobed : (m.endProbe id).sessionById id = some session := hsession
  simp [ConnectionManager.probeSession, ConnectionManager.markSessionDead, hprobed, hconnected]

theorem lost_of_status (hids : Ids s) (hknown : Known s) (hsession : s.manager.sessionById id = some session)
    (hconnected : session.status = .connected) (hat : s.At c call) (hpurpose : call.purpose = .tab id)
    {event : ConnectionStatusEvent} (hopened : call.reply.session = some event.sessionId)
    (hdrop : isUnexpectedDrop event.status = true) : .sessionLost id ∈ (s.manager.handleStatus event).2 := by
  obtain ⟨backendId, hmem⟩ := hknown id (by
    rw [ConnectionManager.statusOf_of_sessionById hsession, hconnected])
  -- the session that is known is the one of this call
  obtain ⟨c', call', hat', hpurpose', hreply', -⟩ := hids.mapped hmem
  obtain rfl := hids.tab_unique hat hat' hpurpose hpurpose'
  cases hat.symm.trans hat'
  rw [hreply'] at hopened
  cases hopened
  have hcommand : event.sessionId ∉ s.manager.commandSessions := by
    intro hcommand
    obtain ⟨c', call', command, hat', hother, hhandled⟩ := hids.command hcommand
    obtain rfl := hids.session_unique hat hat' (by rw [hreply']; rfl) (by rw [hhandled]; rfl)
    rw [Option.some.inj (hat.symm.trans hat'), hother] at hpurpose
    cases hpurpose
  have hmapped : s.manager.uiSessionId event.sessionId = some id := by
    cases hfound : s.manager.uiSessionId event.sessionId with
    | none => exact absurd (List.mem_map_of_mem hmem) (under_eq_none.mp (Option.map_eq_none_iff.mp hfound))
    | some other => rw [hids.mapped_eq (ConnectionManager.mem_of_uiSessionId hfound) hmem]
  rw [ConnectionManager.handleStatus, if_neg hcommand, hmapped, Option.getD_some,
    ConnectionManager.handleSessionStatus, hsession]
  simp [hconnected, dropObs_connected hdrop]

theorem drops_of_lost (hids : Ids s) (hchange : Change s event s' o) (hlost : .sessionLost id ∈ o) :
    s.Drops id event := by
  obtain ⟨o1, o2, hsplit⟩ := List.append_of_mem hlost
  obtain ⟨hconnected, -⟩ := split_of_lost hchange hsplit
  refine ⟨Option.map_eq_some_iff.mp hconnected, ?_⟩
  cases hchange with
  | quiet hsame hquiet => cases hquiet _ hlost
  | added hnew hnow => cases hlost
  | closed hlisted hnow => simp at hlost
  | failed hwas hnow hwaits hover => simp at hlost
  | @told _ told rest ui previous hstatuses hmapped hwas hnow =>
    rcases List.mem_cons.mp hlost with hshown | hdropped
    · cases hshown
    · obtain ⟨hdrop, ⟨error, herror⟩ | ⟨hsame, -⟩⟩ := mem_dropObs hdropped
      · cases herror
      · cases hsame
        obtain ⟨c, call, hat, hpurpose, hreply, -⟩ := hids.mapped (ConnectionManager.mem_of_uiSessionId hmapped)
        refine ⟨told, rest, c, call, hstatuses, ?_, hat, hpurpose, by rw [hreply]; rfl⟩
        revert hdrop
        cases told.status <;> simp [isUnexpectedDrop]
  | dead hwas hnow => exact ⟨by simpa [eq_comm] using hlost, rfl⟩

theorem lost_of_drops (hids : Ids s) (hknown : Known s) (hstep : step s event = some (s', o))
    (hdrops : s.Drops id event) : .sessionLost id ∈ o := by
  obtain ⟨⟨session, hsession, hconnected⟩, hevent⟩ := hdrops
  cases event with
  | probe probed failure =>
    obtain ⟨rfl, hfailed⟩ := hevent
    obtain ⟨message, rfl⟩ := Option.isSome_iff_exists.mp hfailed
    simp only [step, Option.ite_none_right_eq_some] at hstep
    obtain ⟨-, rfl⟩ := some_mk_inj hstep.2
    exact lost_of_probe hsession hconnected message
  | status =>
    obtain ⟨told, rest, c, call, hstatuses, hdrop, hat, hpurpose, hopened⟩ := hevent
    simp only [step, hstatuses] at hstep
    cases hstep
    refine lost_of_status hids hknown hsession hconnected hat hpurpose hopened ?_
    rcases List.mem_cons.mp hdrop with herror | hdisconnected
    · rw [herror]
      rfl
    · rw [List.mem_singleton.mp hdisconnected]
      rfl
  | _ => exact hevent.elim

theorem lost_exactly {G : Connections → ConnectionEvent → Prop} (hreach : Reaches step G initial h s) :
    LostExactly h ∧ ∀ {event s' o}, step s event = some (s', o) → ∀ id, .sessionLost id ∈ o ↔ s.Drops id event := by
  refine ⟨⟨?once, ?every, ?never⟩, ?fires⟩
  case once =>
    intro h1 h2 id hsplit
    refine hreach.observed (Q := fun h1 x => ∀ id, x = .sessionLost id → Linked h1 id) ?_ hsplit id rfl
    rintro h s event s' o1 x o2 hbefore _ hstep id rfl
    have hchange := change_of_taken (ids_of_reaches hbefore) (taken_of_step hstep)
    obtain ⟨hconnected, status, error, rfl⟩ := split_of_lost hchange rfl
    refine (linked_append ?_).mpr (link_of_reaches hbefore id hconnected)
    intro y hy
    rcases List.mem_cons.mp hy with rfl | hy
    · exact linkOf_shown_connected
    · rw [List.mem_singleton.mp hy]
      rfl
  case every =>
    intro h1 h2 id status hsplit hdrop
    exact reported_of_reaches hreach h1 h2 id status hsplit hdrop
  case never =>
    intro h1 h2 id hsplit hlost
    have hafter : ∃ _ : Unit, Gone s id ∧ ∀ x ∈ h2, x ≠ .sessionLost id := by
      refine hreach.aftermath (T := fun x => x = .closed id) (P := fun _ s => Gone s id)
        (Q := fun _ x => x ≠ .sessionLost id) ?_ ?_ hsplit rfl
      · rintro h s event s' o x o' hbefore _ hstep rfl
        have hmem : .closed id ∈ o ++ .closed id :: o' := by simp
        obtain ⟨hgone, hnever⟩ := gone_of_closed (ids_of_reaches hbefore) (taken_of_step hstep) hmem
        exact ⟨(), hgone, fun y hy => hnever y (by simp [hy])⟩
      · intro _ s event s' o hgone _ hstep
        exact hgone.step (taken_of_step hstep)
    obtain ⟨-, -, hnever⟩ := hafter
    exact hnever _ hlost rfl
  case fires =>
    intro event s' o hstep id
    have hids := ids_of_reaches hreach
    exact ⟨drops_of_lost hids (change_of_taken hids (taken_of_step hstep)),
      lost_of_drops hids (known_of_reaches hreach) hstep⟩

/-- Two connected sessions: the host of the first can not be reached any more, and the backend's error comes after
that; the second answers its probe, and then the backend says that it is over. -/
theorem lost_exactly_two_drops : ∃ h s, Reaches step (fun _ _ => True) initial h s ∧
    .sessionLost "a" ∈ h ∧ .sessionLost "c" ∉ h ∧ LostExactly h ∧ s.Drops "c" .status := by
  obtain ⟨h, s, hreach, hfirst, hsecond, hlost⟩ := Reaches.exists_history step initial
    (P := fun h s => .sessionLost "a" ∈ h ∧ .sessionLost "c" ∉ h ∧
      ((step s .status).any fun r => decide (.sessionLost "c" ∈ r.2)) = true) (fun _ _ => true)
    (fun _ _ _ => trivial)
    [.connect "a" webServer, .resolved 0 (.ok (.mk webServer none)), .accept 0 "b", .reply 0,
      .connect "c" webServer, .resolved 1 (.ok (.mk webServer none)), .accept 1 "d", .reply 1,
      .emit ⟨"b", .connected, none⟩, .emit ⟨"d", .connected, none⟩, .status, .status, .heartbeat,
      .emit ⟨"b", .error, none⟩, .emit ⟨"d", .disconnected, none⟩, .probe "a" (some "Connection lost."),
      .probe "c" none, .status] (by decide)
  obtain ⟨⟨s', o⟩, hstep, hmem⟩ := (Option.any_eq_true _ _).mp hlost
  have hexactly := lost_exactly hreach
  exact ⟨h, s, hreach, hfirst, hsecond, hexactly.1, (hexactly.2 hstep "c").mp (of_decide_eq_true hmem)⟩

end Connections

end Portix.Connection
