import Portix.Connection.Proofs.SessionStatusProofs

/-!
# The status that is shown is the last one

Once the reply to a request for a session and the statuses of the session are handled, they have met:
what a terminal session shows, by how its call has gone (`Shown`), and what was said of the end of a
command session (`Told`).
-/

namespace Portix.Connection

open Lib

open Ssh (ConnectionStatus ConnectionStatusEvent)

namespace Connections

variable {s s' : Connections} {h o : List ConnectionObs} {event : ConnectionEvent} {id ui : String}
  {c : Nat} {call : ConnectCall} {status : ConnectionStatus} {purpose : Purpose}

/-- The reply that a session was opened for this is handled. -/
def Answered (s : Connections) (purpose : Purpose) (id : String) : Prop :=
  ∃ c call, s.At c call ∧ call.purpose = purpose ∧ call.reply = .handled (.ok id)

variable {call' : ConnectCall}

theorem answered_setCall (hat : s.At c call)
    (hcalls : s'.calls = s.calls.set c call') (hpurpose : call'.purpose = call.purpose)
    (hreply : ∀ id, call'.reply = .handled (.ok id) ↔ call.reply = .handled (.ok id)) :
    s'.Answered purpose id ↔ s.Answered purpose id := by
  constructor
  · rintro ⟨j, x, hx, hfor, hhandled⟩
    unfold At at hx
    rw [hcalls] at hx
    rcases (getElem?_set_eq_some hat).mp hx with ⟨rfl, rfl⟩ | ⟨_, hold⟩
    · exact ⟨j, call, hat, hpurpose.symm.trans hfor, (hreply id).mp hhandled⟩
    · exact ⟨j, x, hold, hfor, hhandled⟩
  · rintro ⟨j, x, hx, hfor, hhandled⟩
    by_cases hsame : j = c
    · subst hsame
      cases hx.symm.trans hat
      refine ⟨j, call', ?_, hpurpose.trans hfor, (hreply id).mpr hhandled⟩
      unfold At
      rw [hcalls]
      exact (getElem?_set_eq_some hat).mpr (.inl ⟨rfl, rfl⟩)
    · refine ⟨j, x, ?_, hfor, hhandled⟩
      unfold At
      rw [hcalls]
      exact (getElem?_set_eq_some hat).mpr (.inr ⟨hsame, hx⟩)

theorem answered_append (hcalls : s'.calls = s.calls ++ [call]) (hreply : call.reply = .unasked) :
    s'.Answered purpose id ↔ s.Answered purpose id := by
  unfold Answered At
  rw [hcalls]
  constructor
  · rintro ⟨j, x, hx, hfor, hhandled⟩
    rcases getElem?_concat_eq_some.mp hx with hold | ⟨_, rfl⟩
    · exact ⟨j, x, hold, hfor, hhandled⟩
    · cases hreply.symm.trans hhandled
  · rintro ⟨j, x, hx, hfor, hhandled⟩
    exact ⟨j, x, getElem?_concat_eq_some.mpr (.inl hx), hfor, hhandled⟩

variable {result : Except String String}

theorem answered_reply (hanswered : s'.Answered purpose id) (hat : s.At c call)
    (hcalls : s'.calls = s.calls.set c call')
    (hpurpose : call'.purpose = call.purpose) (hnow : call'.reply = .handled result) :
    s.Answered purpose id ∨ (purpose = call.purpose ∧ result = .ok id) := by
  obtain ⟨j, x, hx, hfor, hhandled⟩ := hanswered
  unfold At at hx
  rw [hcalls] at hx
  rcases (getElem?_set_eq_some hat).mp hx with ⟨rfl, rfl⟩ | ⟨_, hold⟩
  · exact .inr ⟨hfor.symm.trans hpurpose, BackendReply.handled.inj (hnow.symm.trans hhandled)⟩
  · exact .inl ⟨j, x, hold, hfor, hhandled⟩

theorem Ids.answered_unique (hids : Ids s) {purpose' : Purpose} (hanswered : s.Answered purpose id)
    (hanswered' : s.Answered purpose' id) : purpose = purpose' := by
  obtain ⟨c, call, hat, rfl, hreply⟩ := hanswered
  obtain ⟨c', call', hat', rfl, hreply'⟩ := hanswered'
  obtain rfl := hids.session_unique hat hat' (BackendReply.session_of_handled hreply)
    (BackendReply.session_of_handled hreply')
  rw [Option.some.inj (hat.symm.trans hat')]

theorem Ids.answered_session (hids : Ids s) {id' : String} (hanswered : s.Answered (.tab ui) id)
    (hanswered' : s.Answered (.tab ui) id') : id = id' := by
  obtain ⟨c, call, hat, hpurpose, hreply⟩ := hanswered
  obtain ⟨c', call', hat', hpurpose', hreply'⟩ := hanswered'
  obtain rfl := hids.tab_unique hat hat' hpurpose hpurpose'
  cases hat.symm.trans hat'
  exact Except.ok.inj (BackendReply.handled.inj (hreply.symm.trans hreply'))

theorem Ids.answered_of_mapped (hids : Ids s) (hmapped : s.manager.uiSessionId id = some ui) :
    s.Answered (.tab ui) id := by
  obtain ⟨c, call, hat, hpurpose, hreply, -⟩ := hids.mapped (ConnectionManager.mem_of_uiSessionId hmapped)
  exact ⟨c, call, hat, hpurpose, hreply⟩

theorem Ids.not_answered (hids : Ids s) (hat : s.At c call) (hreply : call.reply = .replied (.ok id)) :
    ¬s.Answered purpose id := by
  rintro ⟨c', call', hat', -, hreply'⟩
  obtain rfl := hids.session_unique hat hat' (BackendReply.session_of_replied hreply)
    (BackendReply.session_of_handled hreply')
  cases hat.symm.trans hat'
  cases hreply.symm.trans hreply'

theorem Ids.not_answered_of_waits (hids : Ids s) (hwaits : s.Waits ui) : ¬s.Answered (.tab ui) id := by
  rintro ⟨c, call, hat, hpurpose, hreply⟩
  obtain ⟨j, x, hx, htab, hopen⟩ := hwaits
  obtain rfl := hids.tab_unique hx hat htab hpurpose
  obtain rfl := Option.some.inj (hx.symm.trans hat)
  obtain ⟨hresolving, hwaiting⟩ := hids.phased hat
  cases hphase : x.phase with
  | resolving => cases (hresolving hphase).symm.trans hreply
  | waiting =>
    rcases hwaiting hphase with hpending | ⟨result, hreplied⟩
    · cases hpending.symm.trans hreply
    · cases hreplied.symm.trans hreply
  | returned => exact hopen hphase

variable {events : List ConnectionStatusEvent}

theorem statusesOf_concat_ne {event : ConnectionStatusEvent}
    (hne : event.sessionId ≠ id) : statusesOf id (events ++ [event]) = statusesOf id events := by
  unfold statusesOf
  rw [List.filter_append, List.filter_cons_of_neg (by simpa using hne)]
  simp

theorem statusesOf_concat_self (event : ConnectionStatusEvent) : statusesOf event.sessionId (events ++ [event]) =
      statusesOf event.sessionId events ++ [event.status] := by
  unfold statusesOf
  rw [List.filter_append, List.filter_cons_of_pos (by simp)]
  simp

theorem dropsOf_concat_ne {event : ConnectionStatusEvent}
    (hne : event.sessionId ≠ id) : dropsOf id (events ++ [event]) = dropsOf id events := by
  unfold dropsOf
  rw [statusesOf_concat_ne hne]

theorem dropsOf_concat_self (event : ConnectionStatusEvent) : dropsOf event.sessionId (events ++ [event]) =
      dropsOf event.sessionId events ++ if isUnexpectedDrop event.status then [event.status] else [] := by
  unfold dropsOf
  rw [statusesOf_concat_self, List.filter_append]
  by_cases hdrop : isUnexpectedDrop event.status = true
  · rw [if_pos hdrop, List.filter_cons_of_pos hdrop, List.filter_nil]
  · rw [if_neg hdrop, List.filter_cons_of_neg hdrop, List.filter_nil]

theorem delivered_append : delivered id (h ++ o) = delivered id h ++ delivered id o :=
  List.filterMap_append

/-- What a terminal session shows once its call has returned. -/
structure Shown (s : Connections) (ui : String) : Prop where
  failed {status : ConnectionStatus} : ¬s.Waits ui → s.manager.statusOf ui = some status →
    (∀ id, s.manager.uiSessionId id ≠ some ui) → status = .error
  known {id : String} {last status : ConnectionStatus} : s.manager.uiSessionId id = some ui →
    s.Heard id → (statusesOf id s.handled).getLast? = some last →
    s.manager.statusOf ui = some status → status = last
  late {id : String} {last : ConnectionStatus} : s.Answered (.tab ui) id →
    s.manager.uiSessionId id ≠ some ui → s.Heard id →
    (statusesOf id s.handled).getLast? = some last → s.manager.Listed ui → last = .error

namespace Shown

theorem of_none (hnone : s.manager.statusOf ui = none) : Shown s ui where
  failed _ hstatus := by cases hnone.symm.trans hstatus
  known _ _ _ hstatus := by cases hnone.symm.trans hstatus
  late _ _ _ _ hlisted := absurd hlisted (ConnectionManager.statusOf_eq_none.mp hnone)

theorem congr (hinv : Shown s ui) (hids : Ids s') (hstatus : s'.manager.statusOf ui = s.manager.statusOf ui)
    (hwaits : s.Waits ui → s'.Waits ui)
    (hmap : ∀ id, s'.manager.uiSessionId id = some ui ↔ s.manager.uiSessionId id = some ui)
    (hanswered : ∀ id, s'.Answered (.tab ui) id → s.Answered (.tab ui) id)
    (hheard : ∀ id, s'.Answered (.tab ui) id → s'.Heard id →
      s.Heard id ∧ statusesOf id s'.handled = statusesOf id s.handled) : Shown s' ui where
  failed hover hshown hunmapped := by
    rw [hstatus] at hshown
    exact hinv.failed (fun hbefore => hover (hwaits hbefore)) hshown
      (fun id hmapped => hunmapped id ((hmap id).mpr hmapped))
  known {id last status} hmapped hall hlast hshown := by
    obtain ⟨hbefore, hsame⟩ := hheard id (hids.answered_of_mapped hmapped) hall
    rw [hsame] at hlast
    rw [hstatus] at hshown
    exact hinv.known ((hmap id).mp hmapped) hbefore hlast hshown
  late {id last} hfor hunmapped hall hlast hlisted := by
    obtain ⟨hbefore, hsame⟩ := hheard id hfor hall
    rw [hsame] at hlast
    have hlisted' : s.manager.Listed ui := by
      by_contra hnot
      rw [← ConnectionManager.statusOf_eq_none, ← hstatus, ConnectionManager.statusOf_eq_none] at hnot
      exact hnot hlisted
    exact hinv.late (hanswered id hfor) (fun hmapped => hunmapped ((hmap id).mpr hmapped)) hbefore hlast hlisted'

theorem of_same (hinv : Shown s ui) (hids : Ids s') (hstatus : s'.manager.statusOf ui = s.manager.statusOf ui)
    (hmap : s'.manager.backendToUiSessionIds = s.manager.backendToUiSessionIds)
    (hstatuses : s'.statuses = s.statuses) (hhandled : s'.handled = s.handled) (hwaits : s.Waits ui → s'.Waits ui)
    (hanswered : ∀ id, s'.Answered (.tab ui) id → s.Answered (.tab ui) id) : Shown s' ui := by
  refine hinv.congr hids hstatus hwaits (fun id => ?_) hanswered fun id _ hall => ?_
  · unfold ConnectionManager.uiSessionId
    rw [hmap]
  · unfold Heard at hall ⊢
    rw [hstatuses] at hall
    exact ⟨hall, by rw [hhandled]⟩

end Shown

theorem shown_closeSession (hids : Ids s) (hids' : Ids { s with manager := (s.manager.closeSession id).1 })
    (hinv : Shown s ui) : Shown { s with manager := (s.manager.closeSession id).1 } ui := by
  cases hsession : s.manager.sessionById id with
  | none =>
    rw [ConnectionManager.closeSession_of_none hsession]
    exact hinv
  | some session =>
    have hstatus := ConnectionManager.statusOf_closeSession hsession
    obtain ⟨-, -, hlookup⟩ := ConnectionManager.closeSession_of_some hsession
    by_cases hsame : ui = id
    · subst hsame
      refine .of_none ?_
      show (s.manager.closeSession ui).1.statusOf ui = none
      rw [hstatus, Function.update_self]
    · refine hinv.congr hids' ?_ (fun hwaits => hwaits) ?_ (fun _ hanswered => hanswered) (fun _ _ hall => ⟨hall, rfl⟩)
      · show (s.manager.closeSession id).1.statusOf ui = s.manager.statusOf ui
        rw [hstatus, Function.update_of_ne hsame]
      · intro backendId
        show (s.manager.closeSession id).1.uiSessionId backendId = some ui ↔ _
        rw [hlookup]
        by_cases hknown : some backendId = s.manager.backendSessionId id
        · rw [if_neg (not_not.mpr hknown)]
          constructor
          · rintro ⟨⟩
          · intro hmapped
            exact absurd (hids.mapped_eq (ConnectionManager.mem_of_uiSessionId hmapped)
              (ConnectionManager.mem_of_backendSessionId hknown.symm)) hsame
        · rw [if_pos hknown]

theorem waits_append (hcalls : s'.calls = s.calls ++ [call]) (hwaits : s.Waits ui) : s'.Waits ui := by
  obtain ⟨j, x, hx, htab, hopen⟩ := hwaits
  refine ⟨j, x, ?_, htab, hopen⟩
  unfold At
  rw [hcalls]
  exact getElem?_concat_eq_some.mpr (.inl hx)

theorem waits_setCall (hat : s.At c call) (hcalls : s'.calls = s.calls.set c call')
    (hkeep : call.purpose = .tab ui → call.phase ≠ .returned → call'.purpose = .tab ui ∧ call'.phase ≠ .returned)
    (hwaits : s.Waits ui) : s'.Waits ui := by
  obtain ⟨j, x, hx, htab, hopen⟩ := hwaits
  unfold Waits At
  rw [hcalls]
  by_cases hsame : j = c
  · subst hsame
    cases hx.symm.trans hat
    obtain ⟨htab', hopen'⟩ := hkeep htab hopen
    exact ⟨j, call', (getElem?_set_eq_some hat).mpr (.inl ⟨rfl, rfl⟩), htab', hopen'⟩
  · exact ⟨j, x, (getElem?_set_eq_some hat).mpr (.inr ⟨hsame, hx⟩), htab, hopen⟩

theorem shown_connect {profile : Hop} (hids : Ids s) (hfresh : id ∉ s.used) (hids' : Ids s')
    (hcalls : s'.calls = s.calls ++ [⟨.tab id, profile, .resolving, .unasked⟩])
    (hmanager : s'.manager = s.manager.addSession id profile) (hstatuses : s'.statuses = s.statuses)
    (hhandled : s'.handled = s.handled) (hinv : Shown s ui) : Shown s' ui := by
  have hanswered : ∀ {purpose backendId}, s'.Answered purpose backendId → s.Answered purpose backendId :=
    (answered_append hcalls rfl).mp
  have hstatus := ConnectionManager.statusOf_addSession (hids.not_listed_of_new hfresh) profile
  have hnew : ∀ {c call}, s.At c call → call.purpose ≠ .tab id := by
    intro c call hat hpurpose
    exact hfresh (hids.tab_used hat hpurpose)
  by_cases hsame : ui = id
  · subst hsame
    have hwaits : s'.Waits ui := by
      refine ⟨s.calls.length, ⟨.tab ui, profile, .resolving, .unasked⟩, ?_, rfl, by simp⟩
      unfold At
      rw [hcalls]
      exact getElem?_concat_eq_some.mpr (.inr ⟨rfl, rfl⟩)
    constructor
    · intro status hover
      exact absurd hwaits hover
    · intro backendId last status hmapped
      obtain ⟨c, call, hat, hpurpose, -⟩ := hanswered (hids'.answered_of_mapped hmapped)
      exact absurd hpurpose (hnew hat)
    · intro backendId last hfor
      obtain ⟨c, call, hat, hpurpose, -⟩ := hanswered hfor
      exact absurd hpurpose (hnew hat)
  · refine hinv.of_same hids' ?_ (by rw [hmanager]; rfl) hstatuses hhandled (waits_append hcalls) (fun _ => hanswered)
    rw [hmanager, hstatus, Function.update_of_ne hsame]

theorem shown_failed {reply : BackendReply} (hids : Ids s) (hat : s.At c call) (hphase : call.phase ≠ .returned)
    (hreply : reply = call.reply ∨ ∃ error, call.reply = .replied (.error error) ∧ reply = .handled (.error error))
    (hids' : Ids (s.failed c { call with reply := reply }).1) (hinv : Shown s ui) :
    Shown (s.failed c { call with reply := reply }).1 ui := by
  have hanswered : ∀ {purpose id}, (s.failed c { call with reply := reply }).1.Answered purpose id →
      s.Answered purpose id := by
    intro purpose id
    refine (answered_setCall hat calls_failed ?_ ?_).mp
    · rfl
    · intro id
      rcases hreply with rfl | ⟨error, hbefore, rfl⟩
      · exact Iff.rfl
      · rw [hbefore]
        simp
  have hfrom : call.purpose ≠ .tab ui → s.Waits ui → (s.failed c { call with reply := reply }).1.Waits ui :=
    fun hne hwaits => waits_setCall hat calls_failed (fun htab _ => absurd htab hne) hwaits
  obtain ⟨purpose, hop, phase, reply'⟩ := call
  cases purpose with
  | command command =>
    exact hinv.of_same hids' rfl rfl rfl rfl (hfrom (by simp)) (fun _ => hanswered)
  | tab id =>
    have hkeeps := ConnectionManager.Keeps.setFailed s.manager id
    have hwaits : s.Waits id := ⟨c, _, hat, rfl, hphase⟩
    cases hsession : s.manager.sessionById ui with
    | none =>
      refine .of_none ?_
      have hnone : ¬s.manager.Listed ui := ConnectionManager.sessionById_eq_none.mp hsession
      refine ConnectionManager.statusOf_eq_none.mpr ?_
      show ui ∉ (s.manager.setFailed id).1.ids
      rw [hkeeps.ids]
      exact hnone
    | some session =>
      by_cases hsame : ui = id
      · subst hsame
        have hstatus : (s.manager.setFailed ui).1.statusOf ui = some .error := by
          rw [ConnectionManager.setFailed_of_some hsession]
          have hwas := ConnectionManager.statusOf_of_sessionById hsession
          rw [ConnectionManager.statusOf_setStatus hwas, Function.update_self]
        constructor
        · intro status _ hshown _
          exact (Option.some.inj (hstatus.symm.trans hshown)).symm
        · intro backendId last status hmapped
          exact absurd ((hkeeps.uiSessionId backendId).symm.trans hmapped) (hids.not_mapped hwaits)
        · intro backendId last hfor
          exact absurd (hanswered hfor) (hids.not_answered_of_waits hwaits)
      · refine hinv.of_same hids' ?_ hkeeps.map rfl rfl ?_ (fun _ => hanswered)
        · show (s.manager.setFailed id).1.statusOf ui = s.manager.statusOf ui
          cases hother : s.manager.sessionById id with
          | none => rw [ConnectionManager.setFailed_of_none hother]
          | some other =>
            rw [ConnectionManager.setFailed_of_some hother, ConnectionManager.statusOf_setStatus
              (ConnectionManager.statusOf_of_sessionById hother), Function.update_of_ne hsame]
        · refine hfrom ?_
          intro htab
          exact hsame (Purpose.tab.inj htab).symm

theorem shown_replyTab {backendId tab : String} (hids : Ids s) (hconnecting : Connecting s)
    (hprompt : Prompt s (.reply c)) (hat : s.At c call) (hreply : call.reply = .replied (.ok backendId))
    (hphase : call.phase = .waiting) (hpurpose : call.purpose = .tab tab) (hids' : Ids s')
    (hcalls : s'.calls = s.calls.set c { call with phase := .returned, reply := .handled (.ok backendId) })
    (hmanager : s'.manager = s.manager.mapSession backendId tab) (hstatuses : s'.statuses = s.statuses)
    (hhandled : s'.handled = s.handled) (hinv : Shown s ui) : Shown s' ui := by
  have hnew : ∀ {purpose id}, s'.Answered purpose id →
      s.Answered purpose id ∨ (purpose = .tab tab ∧ id = backendId) := by
    intro purpose id hanswered
    rcases answered_reply hanswered hat hcalls rfl rfl with hbefore | ⟨hfor, hresult⟩
    · exact .inl hbefore
    · exact .inr ⟨hfor.trans hpurpose, (Except.ok.inj hresult).symm⟩
  have hopen : call.phase ≠ .returned := by
    rw [hphase]
    simp
  have hwaits : s.Waits tab := ⟨c, call, hat, hpurpose, hopen⟩
  have hmapped : s'.manager.uiSessionId backendId = some tab := by
    rw [hmanager, ConnectionManager.uiSessionId_mapSession, if_pos rfl]
  have hheard : ∀ {id}, s'.Heard id → s.Heard id := by
    intro id hall
    unfold Heard at hall ⊢
    rwa [hstatuses] at hall
  have hstatusOf : s'.manager.statusOf = s.manager.statusOf := by
    rw [hmanager]
    rfl
  by_cases hsame : ui = tab
  · subst hsame
    -- its one session is the one that was opened now
    have hsession : ∀ {id}, s'.Answered (.tab ui) id → id = backendId := by
      intro id hanswered
      rcases hnew hanswered with hbefore | ⟨-, hid⟩
      · exact absurd hbefore (hids.not_answered_of_waits hwaits)
      · exact hid
    constructor
    · intro status _ _ hunmapped
      exact absurd hmapped (hunmapped backendId)
    · intro id last status hmapped' hall hlast hshown
      obtain rfl := hsession (hids'.answered_of_mapped hmapped')
      rw [hstatusOf] at hshown
      rw [hhandled] at hlast
      have hsaid := hprompt call id hat hreply
      rw [hpurpose] at hsaid
      have hlast' := hsaid (hheard hall) (ConnectionManager.listed_of_statusOf hshown) last hlast
      rw [hconnecting ui status hwaits hshown, hlast', if_pos hphase]
    · intro id last hfor hunmapped
      obtain rfl := hsession hfor
      exact absurd hmapped hunmapped
  · have hother : ∀ {id}, s'.Answered (.tab ui) id → s.Answered (.tab ui) id := by
      intro id hanswered
      rcases hnew hanswered with hbefore | ⟨hfor, -⟩
      · exact hbefore
      · exact absurd (Purpose.tab.inj hfor) hsame
    refine hinv.congr hids' (by rw [hstatusOf]) ?_ ?_ (fun _ => hother) ?_
    · refine waits_setCall hat hcalls ?_
      intro htab _
      exact absurd (Purpose.tab.inj (htab.symm.trans hpurpose)) hsame
    · intro id
      rw [hmanager, ConnectionManager.uiSessionId_mapSession]
      by_cases hid : id = backendId
      · subst hid
        rw [if_pos rfl]
        constructor
        · intro htab
          exact absurd (Option.some.inj htab).symm hsame
        · intro hbefore
          exact absurd (hids.answered_of_mapped hbefore) (hids.not_answered hat hreply)
      · rw [if_neg hid]
    · intro id _ hall
      rw [hhandled]
      exact ⟨hheard hall, rfl⟩

/-- A reply that is too late: the session shows an error, and that is what was last sent, unless more is
to come. -/
theorem shown_late (hprompt : Prompt s (.reply c))
    (hat : s.At c call) (hreply : call.reply = .replied result) (hphase : call.phase ≠ .waiting)
    (hids' : Ids (s.setCall c { call with reply := .handled result })) (hinv : Shown s ui) :
    Shown (s.setCall c { call with reply := .handled result }) ui := by
  have hcalls : (s.setCall c { call with reply := .handled result }).calls =
      s.calls.set c { call with reply := .handled result } := rfl
  have hwaits : s.Waits ui → (s.setCall c { call with reply := .handled result }).Waits ui :=
    waits_setCall hat hcalls fun htab hopen => ⟨htab, hopen⟩
  refine ⟨?_, hinv.known, ?_⟩
  · intro status hover hshown hunmapped
    exact hinv.failed (fun hbefore => hover (hwaits hbefore)) hshown hunmapped
  · intro id last hfor hunmapped hall hlast hlisted
    rcases answered_reply hfor hat hcalls rfl rfl with hbefore | ⟨hpurpose, rfl⟩
    · exact hinv.late hbefore hunmapped hall hlast hlisted
    · have hsaid := hprompt call id hat hreply
      rw [← hpurpose] at hsaid
      have hlast' := hsaid hall hlisted last hlast
      rw [if_neg hphase] at hlast'
      exact hlast'

theorem Ids.not_command (hids : Ids s) (hmapped : s.manager.uiSessionId id = some ui) :
    id ∉ s.manager.commandSessions := by
  intro hmem
  obtain ⟨c, call, command, hat, hpurpose, hreply⟩ := hids.command hmem
  cases hids.answered_unique (hids.answered_of_mapped hmapped) ⟨c, call, hat, hpurpose, hreply⟩

theorem statusOf_handleStatus_mapped {event : ConnectionStatusEvent} (hids : Ids s)
    (hmapped : s.manager.uiSessionId event.sessionId = some ui)
    (hshown : (s.manager.handleStatus event).1.statusOf ui = some status) : status = event.status := by
  have hcommand := hids.not_command hmapped
  unfold ConnectionManager.handleStatus at hshown
  rw [if_neg hcommand, hmapped, Option.getD_some] at hshown
  unfold ConnectionManager.handleSessionStatus at hshown
  cases hsession : s.manager.sessionById ui with
  | none =>
    rw [hsession] at hshown
    rw [ConnectionManager.statusOf_eq_none.mpr (ConnectionManager.sessionById_eq_none.mp hsession)] at hshown
    cases hshown
  | some session =>
    rw [hsession] at hshown
    rw [ConnectionManager.statusOf_setStatus (ConnectionManager.statusOf_of_sessionById hsession),
      Function.update_self] at hshown
    exact (Option.some.inj hshown).symm

variable {rest : List ConnectionStatusEvent}

theorem shown_status {event : ConnectionStatusEvent} (hids : Ids s)
    (hprompt : Prompt s .status) (hstatuses : s.statuses = event :: rest) (hinv : Shown s ui)
    (hcalls : s'.calls = s.calls) (hmanager : s'.manager = (s.manager.handleStatus event).1)
    (hrest : s'.statuses = rest) (hhandled : s'.handled = s.handled ++ [event]) : Shown s' ui := by
  have hanswered : ∀ {purpose id}, s'.Answered purpose id → s.Answered purpose id := by
    intro purpose id hanswered
    unfold Answered At at hanswered ⊢
    rwa [hcalls] at hanswered
  have hwaits : ∀ {ui}, s.Waits ui → s'.Waits ui := by
    intro ui hwaits
    unfold Waits At at hwaits ⊢
    rwa [hcalls]
  have hkeeps := ConnectionManager.Keeps.handleStatus s.manager event
  have hmap : ∀ id, s'.manager.uiSessionId id = s.manager.uiSessionId id := by
    rw [hmanager]
    exact hkeeps.uiSessionId
  have hlisted : s'.manager.Listed ui → s.manager.Listed ui := by
    intro hlisted
    unfold ConnectionManager.Listed at hlisted
    rw [hmanager] at hlisted
    show ui ∈ s.manager.ids
    rw [← hkeeps.ids]
    exact hlisted
  have hheard : ∀ {id}, event.sessionId ≠ id → s'.Heard id → s.Heard id := by
    intro id hne hall event' hmem
    rw [hstatuses] at hmem
    rcases List.mem_cons.mp hmem with rfl | hmem
    · exact hne
    · exact hall event' (hrest ▸ hmem)
  by_cases hmapped : s.manager.uiSessionId event.sessionId = some ui
  · constructor
    · intro status _ _ hunmapped
      exact absurd ((hmap _).trans hmapped) (hunmapped event.sessionId)
    · intro id last status hmapped' hall hlast hshown
      rw [hmap] at hmapped'
      obtain rfl := hids.answered_session (hids.answered_of_mapped hmapped) (hids.answered_of_mapped hmapped')
      rw [hhandled, statusesOf_concat_self, List.getLast?_concat] at hlast
      rw [hmanager] at hshown
      rw [← Option.some.inj hlast]
      exact statusOf_handleStatus_mapped hids hmapped hshown
    · intro id last hfor hunmapped
      obtain rfl := hids.answered_session (hids.answered_of_mapped hmapped) (hanswered hfor)
      exact absurd ((hmap _).trans hmapped) hunmapped
  · have hstatus : s'.manager.statusOf ui = s.manager.statusOf ui := by
      have hchange : Change s .status s' (s.manager.handleStatus event).2 :=
        change_told hids hstatuses hmanager
      generalize (s.manager.handleStatus event).2 = o at hchange
      cases hchange with
      | quiet hsame hquiet => rw [hsame]
      | failed hwas hnow hbefore hover => exact absurd (hwaits hbefore) hover
      | told hstatuses' hmapped' hwas hnow =>
        cases hstatuses.symm.trans hstatuses'
        rw [hnow]
        refine Function.update_of_ne ?_ _ _
        rintro rfl
        exact hmapped hmapped'
    constructor
    · intro status hover hshown hunmapped
      rw [hstatus] at hshown
      refine hinv.failed (fun hbefore => hover (hwaits hbefore)) hshown ?_
      intro id hbefore
      exact hunmapped id ((hmap id).trans hbefore)
    · intro id last status hmapped' hall hlast hshown
      rw [hmap] at hmapped'
      rw [hstatus] at hshown
      have hne : event.sessionId ≠ id := by
        rintro rfl
        exact hmapped hmapped'
      rw [hhandled, statusesOf_concat_ne hne] at hlast
      exact hinv.known hmapped' (hheard hne hall) hlast hshown
    · intro id last hfor hunmapped hall hlast hlisted'
      rw [hmap] at hunmapped
      by_cases hsame : event.sessionId = id
      · subst hsame
        have hnone : s.manager.uiSessionId event.sessionId = none := by
          cases hother : s.manager.uiSessionId event.sessionId with
          | none => rfl
          | some other =>
            have hone := hids.answered_unique (hids.answered_of_mapped hother) (hanswered hfor)
            rw [Purpose.tab.inj hone] at hother
            exact absurd hother hmapped
        obtain ⟨c, call, hat, hpurpose, hreply⟩ := hanswered hfor
        have hsaid := hprompt event rest c call hstatuses hat hreply
        rw [hpurpose] at hsaid
        rw [hhandled, statusesOf_concat_self, List.getLast?_concat] at hlast
        rw [← Option.some.inj hlast]
        exact hsaid hnone (hlisted hlisted') (hrest ▸ hall)
      · rw [hhandled, statusesOf_concat_ne hsame] at hlast
        exact hinv.late (hanswered hfor) hunmapped (hheard hsame hall) hlast (hlisted hlisted')

theorem shown_probe {tab : String} {failure : Option String} (hids : Ids s)
    (hprompt : Prompt s (.probe tab failure)) (hinv : Shown s ui)
    (hids' : Ids { s with manager := (s.manager.probeSession tab failure).1 }) :
    Shown { s with manager := (s.manager.probeSession tab failure).1 } ui := by
  have hkeeps := ConnectionManager.Keeps.probeSession s.manager tab failure
  have hmap := hkeeps.uiSessionId
  have hsame : (s.manager.probeSession tab failure).1.statusOf ui = s.manager.statusOf ui →
      Shown { s with manager := (s.manager.probeSession tab failure).1 } ui := by
    intro hstatus
    exact hinv.of_same hids' hstatus hkeeps.map rfl rfl id (fun _ hanswered => hanswered)
  have hchange : Change s (.probe tab failure) { s with manager := (s.manager.probeSession tab failure).1 }
      (s.manager.probeSession tab failure).2 := change_probe rfl
  generalize (s.manager.probeSession tab failure).2 = o at hchange
  cases hchange with
  | quiet hquiet _ => exact hsame (by rw [← hquiet])
  | failed hwas hnow hbefore hover => exact absurd hbefore hover
  | dead hwas hnow =>
    by_cases hother : ui = tab
    · subst hother
      obtain ⟨session, hsession, hconnected⟩ := Option.map_eq_some_iff.mp hwas
      obtain ⟨event, hmem, hmapped⟩ := hprompt rfl session hsession hconnected
      constructor
      · intro status _ _ hunmapped
        exact absurd ((hmap _).trans hmapped) (hunmapped event.sessionId)
      · intro id last status hmapped' hall
        have hsession := hids.answered_session (hids.answered_of_mapped hmapped)
          (hids.answered_of_mapped ((hmap id).symm.trans hmapped'))
        exact absurd hsession (hall event hmem)
      · intro id last hfor hunmapped
        obtain rfl := hids.answered_session (hids.answered_of_mapped hmapped) hfor
        exact absurd ((hmap _).trans hmapped) hunmapped
    · refine hsame ?_
      have hnow' := congrFun hnow ui
      rw [Function.update_of_ne hother] at hnow'
      exact hnow'

theorem shown_setCall (hat : s.At c call) (hcalls : s'.calls = s.calls.set c call')
    (hpurpose : call'.purpose = call.purpose) (hphase : call.phase ≠ .returned → call'.phase ≠ .returned)
    (hreply : ∀ id, call'.reply = .handled (.ok id) ↔ call.reply = .handled (.ok id)) (hids' : Ids s')
    (hstatus : s'.manager.statusOf = s.manager.statusOf)
    (hmap : s'.manager.backendToUiSessionIds = s.manager.backendToUiSessionIds)
    (hstatuses : s'.statuses = s.statuses) (hhandled : s'.handled = s.handled) (hinv : Shown s ui) :
    Shown s' ui := by
  refine hinv.of_same hids' (by rw [hstatus]) hmap hstatuses hhandled ?_
    (fun _ => (answered_setCall hat hcalls hpurpose hreply).mp)
  exact waits_setCall hat hcalls fun htab hopen => ⟨hpurpose.trans htab, hphase hopen⟩

theorem shown_append (hcalls : s'.calls = s.calls ++ [call]) (hreply : call.reply = .unasked)
    (hids' : Ids s') (hmanager : s'.manager = s.manager) (hstatuses : s'.statuses = s.statuses)
    (hhandled : s'.handled = s.handled) (hinv : Shown s ui) : Shown s' ui := by
  exact hinv.of_same hids' (by rw [hmanager]) (by rw [hmanager]) hstatuses hhandled (waits_append hcalls)
    (fun _ => (answered_append hcalls hreply).mp)

theorem shown_manager {m : ConnectionManager} (hids' : Ids { s with manager := m })
    (hstatus : m.statusOf = s.manager.statusOf) (hmap : m.backendToUiSessionIds = s.manager.backendToUiSessionIds)
    (hinv : Shown s ui) : Shown { s with manager := m } ui :=
  hinv.of_same hids' (congrFun hstatus ui) hmap rfl rfl id (fun _ hanswered => hanswered)

theorem Shown.step (hids : Ids s) (hconnecting : Connecting s) (hprompt : Prompt s event)
    (htaken : Taken s event s' o) (hinv : Shown s ui) : Shown s' ui := by
  have hids' := hids.step htaken
  cases htaken with
  | blank hfresh => exact shown_append rfl rfl hids' rfl rfl rfl hinv
  | connect hfresh => exact shown_connect hids hfresh hids' rfl rfl rfl rfl hinv
  | openCommandSession profile command => exact shown_append rfl rfl hids' rfl rfl rfl hinv
  | failed hat hphase hreply => exact shown_failed hids hat hphase hreply hids' hinv
  | @asked c call profile hat hphase endpoints =>
    refine shown_setCall hat rfl rfl (by simp) ?_ hids' rfl rfl rfl rfl hinv
    intro id
    rw [(hids.phased hat).1 hphase]
    simp
  | accept hat hreply hfresh =>
    refine shown_setCall hat rfl rfl id ?_ hids' rfl rfl rfl rfl hinv
    intro id
    rw [hreply]
    simp
  | refuse hat hreply =>
    refine shown_setCall hat rfl rfl id ?_ hids' rfl rfl rfl rfl hinv
    intro id
    rw [hreply]
    simp
  | @emit event hopened =>
    refine hinv.congr hids' rfl id (fun _ => Iff.rfl) (fun _ hanswered => hanswered) ?_
    intro id _ hall
    exact ⟨fun event hmem => hall event (List.mem_append_left _ hmem), rfl⟩
  | replyTab hat hreply hphase hpurpose =>
    exact shown_replyTab hids hconnecting hprompt hat hreply hphase hpurpose hids' rfl rfl rfl rfl hinv
  | @replyCommand c call backendId command hat hreply hphase hpurpose =>
    refine hinv.of_same hids' rfl rfl rfl rfl ?_ ?_
    · refine waits_setCall hat rfl ?_
      intro htab _
      cases hpurpose.symm.trans htab
    · intro id hanswered
      rcases answered_reply hanswered hat rfl rfl rfl with hbefore | ⟨hfor, -⟩
      · exact hbefore
      · cases hfor.trans hpurpose
  | late hat hreply hphase => exact shown_late hprompt hat hreply hphase hids' hinv
  | status hstatuses => exact shown_status hids hprompt hstatuses hinv rfl rfl rfl rfl
  | closeSession id => exact shown_closeSession hids hids' hinv
  | disconnect id => exact hinv
  | renameSession id title =>
    exact shown_manager hids' (ConnectionManager.statusOf_renameSession id title)
      (ConnectionManager.Keeps.renameSession s.manager id title).map hinv
  | heartbeat => exact shown_manager hids' rfl rfl hinv
  | probe id failure => exact shown_probe hids hprompt hinv hids'

/-- What was said of the end of a command session. -/
structure Told (h : List ConnectionObs) (s : Connections) : Prop where
  told {command id : String} : s.Answered (.command command) id →
    delivered id h = (dropsOf id s.handled).head?.toList
  untold {id : String} : (∀ command, ¬s.Answered (.command command) id) → delivered id h = []
  running {id : String} : id ∈ s.manager.commandSessions → dropsOf id s.handled = []

theorem Told.initial : Told [] initial where
  told hanswered := by
    obtain ⟨c, call, hat, -⟩ := hanswered
    cases hat
  untold _ := rfl
  running hmem := by cases hmem

theorem Told.congr (hinv : Told h s)
    (hanswered : ∀ command id, s'.Answered (.command command) id ↔ s.Answered (.command command) id)
    (hnothing : ∀ id, delivered id o = []) (hcommand : s'.manager.commandSessions ⊆ s.manager.commandSessions)
    (hhandled : s'.handled = s.handled) : Told (h ++ o) s' where
  told hfor := by
    rw [delivered_append, hnothing, List.append_nil, hhandled]
    exact hinv.told ((hanswered _ _).mp hfor)
  untold hnone := by
    rw [delivered_append, hnothing, List.append_nil]
    exact hinv.untold (fun command hfor => hnone command ((hanswered command _).mpr hfor))
  running hmem := by
    rw [hhandled]
    exact hinv.running (hcommand hmem)

theorem Told.reply (hids : Ids s)
    (hprompt : Prompt s (.reply c)) (hat : s.At c call) (hreply : call.reply = .replied result)
    (hcalls : s'.calls = s.calls.set c call') (hpurpose : call'.purpose = call.purpose)
    (hnow : call'.reply = .handled result) (hnothing : ∀ id, delivered id o = [])
    (hcommand : ∀ id ∈ s'.manager.commandSessions, id ∈ s.manager.commandSessions ∨
      ((∃ command, call.purpose = .command command) ∧ result = .ok id))
    (hhandled : s'.handled = s.handled) (hinv : Told h s) : Told (h ++ o) s' := by
  have hfresh : ∀ {command id}, call.purpose = .command command → result = .ok id → dropsOf id s.handled = [] := by
    rintro command id hfor rfl
    have hsaid := hprompt call id hat hreply
    rw [hfor] at hsaid
    exact hsaid
  have hback : ∀ {purpose id}, s.Answered purpose id → s'.Answered purpose id := by
    rintro purpose id ⟨j, x, hx, hfor, hhandled⟩
    refine ⟨j, x, ?_, hfor, hhandled⟩
    unfold At
    rw [hcalls]
    refine (getElem?_set_eq_some hat).mpr (.inr ⟨?_, hx⟩)
    rintro rfl
    cases hx.symm.trans hat
    cases hreply.symm.trans hhandled
  constructor
  · intro command id hanswered
    rw [delivered_append, hnothing, List.append_nil, hhandled]
    rcases answered_reply hanswered hat hcalls hpurpose hnow with hbefore | ⟨hfor, hresult⟩
    · exact hinv.told hbefore
    · rw [hfresh hfor.symm hresult]
      exact hinv.untold (fun _ => hids.not_answered hat (hresult ▸ hreply))
  · intro id hnone
    rw [delivered_append, hnothing, List.append_nil]
    exact hinv.untold (fun command hbefore => hnone command (hback hbefore))
  · intro id hmem
    rw [hhandled]
    rcases hcommand id hmem with hbefore | ⟨⟨command, hfor⟩, hresult⟩
    · exact hinv.running hbefore
    · exact hfresh hfor hresult

theorem delivered_eq_nil (hno : ∀ x ∈ o, ∀ sessionId status message,
    x ≠ .commandStatus sessionId status message) : delivered id o = [] := by
  refine List.filterMap_eq_nil_iff.mpr ?_
  intro x hx
  cases x with
  | commandStatus sessionId status message => exact absurd rfl (hno _ hx sessionId status message)
  | returned c result => rfl
  | shown ui previous status => rfl
  | closed ui => rfl
  | error event => rfl
  | sessionLost ui => rfl
  | disconnect ui => rfl
  | input ui data => rfl

theorem delivered_handleSessionStatus {event : ConnectionStatusEvent} (m : ConnectionManager) :
    delivered id (m.handleSessionStatus ui event).2 = [] := by
  refine delivered_eq_nil ?_
  intro x hx sessionId status message
  unfold ConnectionManager.handleSessionStatus at hx
  split at hx
  · cases hx
  · rintro rfl
    rcases List.mem_cons.mp hx with hshown | hdropped
    · cases hshown
    · rcases (mem_dropObs hdropped).2 with ⟨error, herror⟩ | ⟨hlost, -⟩
      · cases herror
      · cases hlost

theorem delivered_probeSession (m : ConnectionManager) (failure : Option String) :
    delivered id (m.probeSession ui failure).2 = [] := by
  cases failure with
  | none => rfl
  | some message =>
    show delivered id ((m.endProbe ui).markSessionDead ui message).2 = []
    unfold ConnectionManager.markSessionDead
    split
    · rfl
    · split
      · rfl
      · rfl

theorem delivered_commandStatus (sessionId : String) (status : ConnectionStatus) (message : Option String) :
    delivered id [.commandStatus sessionId status message] =
      if sessionId = id ∧ isUnexpectedDrop status then [status] else [] := by
  unfold delivered
  by_cases hdrop : sessionId = id ∧ isUnexpectedDrop status = true
  · simp [hdrop.1, hdrop.2]
  · simp only [List.filterMap_cons, List.filterMap_nil, if_neg hdrop]

theorem Told.handleCommand {event : ConnectionStatusEvent} (hinv : Told h s) (hids : Ids s)
    (hcommand : event.sessionId ∈ s.manager.commandSessions)
    (hanswered : ∀ {purpose id}, s'.Answered purpose id ↔ s.Answered purpose id)
    (hhandled : s'.handled = s.handled ++ [event]) (hsessions : ∀ id ∈ s'.manager.commandSessions,
      id ∈ s.manager.commandSessions ∧ (isUnexpectedDrop event.status = true → id ≠ event.sessionId)) :
    Told (h ++ [.commandStatus event.sessionId event.status event.message]) s' := by
  have hnone := hinv.running hcommand
  constructor
  · intro command id hfor
    have hbefore := hinv.told (hanswered.mp hfor)
    rw [delivered_append, delivered_commandStatus, hhandled]
    by_cases hsame : event.sessionId = id
    · subst hsame
      rw [hbefore, dropsOf_concat_self, hnone]
      by_cases hdrop : isUnexpectedDrop event.status = true
      · simp [hdrop]
      · simp [hdrop]
    · rw [if_neg (fun hand => hsame hand.1), List.append_nil, dropsOf_concat_ne hsame]
      exact hbefore
  · intro id hno
    have hsame : event.sessionId ≠ id := by
      rintro rfl
      obtain ⟨c, call, command, hat, hpurpose, hreply⟩ := hids.command hcommand
      exact hno command (hanswered.mpr ⟨c, call, hat, hpurpose, hreply⟩)
    rw [delivered_append, delivered_commandStatus, if_neg (fun hand => hsame hand.1), List.append_nil]
    exact hinv.untold (fun command hfor => hno command (hanswered.mpr hfor))
  · intro id hmem
    obtain ⟨hbefore, hrunning⟩ := hsessions id hmem
    rw [hhandled]
    by_cases hsame : event.sessionId = id
    · subst hsame
      have hdrop : ¬isUnexpectedDrop event.status = true := fun hdrop => hrunning hdrop rfl
      rw [dropsOf_concat_self, if_neg hdrop, hnone]
      rfl
    · rw [dropsOf_concat_ne hsame]
      exact hinv.running hbefore

theorem Told.handleOther {event : ConnectionStatusEvent} (hinv : Told h s) (hprompt : Prompt s .status)
    (hstatuses : s.statuses = event :: rest)
    (hcommand : event.sessionId ∉ s.manager.commandSessions)
    (hanswered : ∀ {purpose id}, s'.Answered purpose id ↔ s.Answered purpose id)
    (hhandled : s'.handled = s.handled ++ [event])
    (hsessions : s'.manager.commandSessions ⊆ s.manager.commandSessions)
    (hnothing : ∀ id, delivered id o = []) : Told (h ++ o) s' := by
  constructor
  · intro command id hfor
    have hbefore := hinv.told (hanswered.mp hfor)
    rw [delivered_append, hnothing, List.append_nil, hbefore, hhandled]
    by_cases hsame : event.sessionId = id
    · subst hsame
      rw [dropsOf_concat_self]
      by_cases hdrop : isUnexpectedDrop event.status = true
      · obtain ⟨c, call, hat, hpurpose, hreply⟩ := hanswered.mp hfor
        have hsaid := hprompt event rest c call hstatuses hat hreply
        rw [hpurpose] at hsaid
        cases hdrops : dropsOf event.sessionId s.handled with
        | nil => exact absurd (hsaid hdrop hdrops) hcommand
        | cons first later => rfl
      · rw [if_neg hdrop, List.append_nil]
    · rw [dropsOf_concat_ne hsame]
  · intro id hno
    rw [delivered_append, hnothing, List.append_nil]
    exact hinv.untold (fun command hfor => hno command (hanswered.mpr hfor))
  · intro id hmem
    have hbefore := hsessions hmem
    have hsame : event.sessionId ≠ id := by
      rintro rfl
      exact hcommand hbefore
    rw [hhandled, dropsOf_concat_ne hsame]
    exact hinv.running hbefore

theorem Told.handleStatus {event : ConnectionStatusEvent} (hinv : Told h s) (hids : Ids s)
    (hprompt : Prompt s .status) (hstatuses : s.statuses = event :: rest)
    (hcalls : s'.calls = s.calls) (hmanager : s'.manager = (s.manager.handleStatus event).1)
    (hhandled : s'.handled = s.handled ++ [event]) :
    Told (h ++ (s.manager.handleStatus event).2) s' := by
  have hanswered : ∀ {purpose id}, s'.Answered purpose id ↔ s.Answered purpose id := by
    intro purpose id
    unfold Answered At
    rw [hcalls]
  by_cases hcommand : event.sessionId ∈ s.manager.commandSessions
  · have hobserved : (s.manager.handleStatus event).2 =
        [.commandStatus event.sessionId event.status event.message] := by
      unfold ConnectionManager.handleStatus
      rw [if_pos hcommand]
    rw [hobserved]
    refine hinv.handleCommand hids hcommand hanswered hhandled ?_
    intro id hmem
    unfold ConnectionManager.handleStatus at hmanager
    rw [hmanager, if_pos hcommand] at hmem
    by_cases hdrop : isUnexpectedDrop event.status = true
    · simp only [if_pos hdrop] at hmem
      obtain ⟨hbefore, hne⟩ := List.mem_filter.mp hmem
      exact ⟨hbefore, fun _ => of_decide_eq_true hne⟩
    · simp only [if_neg hdrop] at hmem
      exact ⟨hmem, fun hnow => absurd hnow hdrop⟩
  · have hother : s.manager.handleStatus event = s.manager.handleSessionStatus
        ((s.manager.uiSessionId event.sessionId).getD event.sessionId) event := by
      unfold ConnectionManager.handleStatus
      rw [if_neg hcommand]
    rw [hother] at hmanager ⊢
    refine hinv.handleOther hprompt hstatuses hcommand hanswered hhandled ?_
      (fun _ => delivered_handleSessionStatus s.manager)
    rw [hmanager]
    exact (ConnectionManager.Keeps.handleSessionStatus s.manager _ event).command

theorem Told.step (hids : Ids s) (hprompt : Prompt s event) (htaken : Taken s event s' o)
    (hinv : Told h s) : Told (h ++ o) s' := by
  have hquiet : ∀ {purpose id}, s'.calls = s.calls → (s'.Answered purpose id ↔ s.Answered purpose id) := by
    intro purpose id hcalls
    unfold Answered At
    rw [hcalls]
  cases htaken with
  | blank hfresh =>
    exact hinv.congr (fun _ _ => answered_append rfl rfl) (fun _ => rfl) (fun _ hmem => hmem) rfl
  | connect hfresh =>
    exact hinv.congr (fun _ _ => answered_append rfl rfl) (fun _ => rfl) (fun _ hmem => hmem) rfl
  | openCommandSession profile command =>
    exact hinv.congr (fun _ _ => answered_append rfl rfl) (fun _ => rfl) (fun _ hmem => hmem) rfl
  | @failed event c call reply hat hphase hreply =>
    have hanswered : ∀ {purpose id}, (s.failed c { call with reply := reply }).1.Answered purpose id ↔
        s.Answered purpose id := by
      intro purpose id
      refine answered_setCall hat calls_failed rfl ?_
      intro id
      rcases hreply with rfl | ⟨error, hbefore, rfl⟩
      · exact Iff.rfl
      · rw [hbefore]
        simp
    obtain ⟨purpose, hop, phase, reply'⟩ := call
    cases purpose with
    | command command =>
      exact hinv.congr (fun _ _ => hanswered) (fun _ => rfl) (fun _ hmem => hmem) rfl
    | tab ui =>
      refine hinv.congr (fun _ _ => hanswered) ?_ (ConnectionManager.Keeps.setFailed s.manager ui).command rfl
      intro id
      show delivered id ((s.manager.setFailed ui).2 ++ [.returned c _]) = []
      cases hsession : s.manager.sessionById ui with
      | none =>
        rw [ConnectionManager.setFailed_of_none hsession]
        rfl
      | some session =>
        rw [ConnectionManager.setFailed_of_some hsession]
        rfl
  | @asked c call profile hat hphase endpoints =>
    refine hinv.congr (fun _ _ => answered_setCall hat rfl rfl ?_) (fun _ => rfl) (fun _ hmem => hmem) rfl
    intro id
    rw [(hids.phased hat).1 hphase]
    simp
  | accept hat hreply hfresh =>
    refine hinv.congr (fun _ _ => answered_setCall hat rfl rfl ?_) (fun _ => rfl) (fun _ hmem => hmem) rfl
    intro id
    rw [hreply]
    simp
  | refuse hat hreply =>
    refine hinv.congr (fun _ _ => answered_setCall hat rfl rfl ?_) (fun _ => rfl) (fun _ hmem => hmem) rfl
    intro id
    rw [hreply]
    simp
  | emit hopened => exact hinv.congr (fun _ _ => hquiet rfl) (fun _ => rfl) (fun _ hmem => hmem) rfl
  | @replyTab c call backendId ui hat hreply hphase hpurpose =>
    refine hinv.reply hids hprompt hat hreply rfl rfl rfl ?_ (fun _ hmem => .inl hmem) rfl
    intro id
    refine delivered_eq_nil ?_
    intro x hmem sessionId status message
    rcases List.mem_append.mp hmem with hinput | hreturned
    · obtain ⟨input, -, rfl⟩ := Option.map_eq_some_iff.mp (Option.mem_toList.mp hinput)
      simp
    · rw [List.mem_singleton.mp hreturned]
      simp
  | @replyCommand c call backendId command hat hreply hphase hpurpose =>
    refine hinv.reply hids hprompt hat hreply rfl rfl rfl (fun _ => rfl) ?_ rfl
    intro id hmem
    rcases List.mem_append.mp hmem with hbefore | hnow
    · exact .inl hbefore
    · rw [List.mem_singleton.mp hnow]
      exact .inr ⟨⟨command, hpurpose⟩, rfl⟩
  | late hat hreply hphase =>
    exact hinv.reply hids hprompt hat hreply rfl rfl rfl (fun _ => rfl) (fun _ hmem => .inl hmem) rfl
  | status hstatuses => exact hinv.handleStatus hids hprompt hstatuses rfl rfl rfl
  | closeSession ui =>
    refine hinv.congr (fun _ _ => hquiet rfl) ?_ (ConnectionManager.Shrinks.closeSession s.manager ui).command
      rfl
    intro id
    cases hsession : s.manager.sessionById ui with
    | none =>
      rw [ConnectionManager.closeSession_of_none hsession]
      rfl
    | some session =>
      rw [(ConnectionManager.closeSession_of_some hsession).2.1]
      rfl
  | disconnect ui => exact hinv.congr (fun _ _ => hquiet rfl) (fun _ => rfl) (fun _ hmem => hmem) rfl
  | renameSession ui title =>
    exact hinv.congr (fun _ _ => hquiet rfl) (fun _ => rfl)
      (ConnectionManager.Keeps.renameSession s.manager ui title).command rfl
  | heartbeat => exact hinv.congr (fun _ _ => hquiet rfl) (fun _ => rfl) (fun _ hmem => hmem) rfl
  | probe ui failure =>
    exact hinv.congr (fun _ _ => hquiet rfl) (fun _ => delivered_probeSession s.manager failure)
      (ConnectionManager.Keeps.probeSession s.manager ui failure).command rfl

theorem status_shown (hreach : Reaches step Prompt initial h s) : StatusShown h s := by
  have hids := ids_of_reaches hreach
  have hinv : Told h s ∧ ∀ ui, Shown s ui := by
    refine hreach.invariant (I := fun h s => (Ids s ∧ Connecting s) ∧ Told h s ∧ ∀ ui, Shown s ui) ?_ ?_ |>.2
    · exact ⟨⟨.initial, connecting_of_reaches (G := Prompt) .start⟩, .initial, fun ui => .of_none rfl⟩
    · rintro h s event s' o ⟨⟨hids, hconnecting⟩, htold, hshown⟩ hprompt hstep
      have htaken := taken_of_step hstep
      exact ⟨⟨hids.step htaken, hconnecting.step hids htaken⟩, htold.step hids hprompt htaken,
        fun ui => (hshown ui).step hids hconnecting hprompt htaken⟩
  intro id c call hat hreply hall
  have hanswered : s.Answered call.purpose id := ⟨c, call, hat, rfl, hreply⟩
  generalize call.purpose = purpose at hanswered
  cases purpose with
  | command command => exact hinv.1.told hanswered
  | tab ui =>
    intro last hlast session hsession
    have hstatus := ConnectionManager.statusOf_of_sessionById hsession
    have hlisted := ConnectionManager.listed_of_sessionById hsession
    by_cases hmapped : s.manager.uiSessionId id = some ui
    · exact (hinv.2 ui).known hmapped hall hlast hstatus
    · have hlate := (hinv.2 ui).late hanswered hmapped hall hlast hlisted
      rw [hlate]
      refine (hinv.2 ui).failed (fun hwaits => hids.not_answered_of_waits hwaits hanswered) hstatus ?_
      intro id' hother
      obtain rfl := hids.answered_session hanswered (hids.answered_of_mapped hother)
      exact hmapped hother

/-- Two logins overlap; the statuses of each come after its reply, those of the second before the first is over. -/
theorem status_shown_two_logins : ∃ h s, Reaches step Prompt initial h s ∧
    s.manager.statusOf "a" = some .connected ∧ s.manager.statusOf "c" = some .error ∧ StatusShown h s := by
  have hresolved : Reaches step Prompt initial _ _ :=
    .next (e := .resolved 1 (.ok (.mk filesServer none))) (.next (e := .resolved 0 (.ok (.mk webServer none)))
      (.next (e := .connect "c" filesServer) (.next (e := .connect "a" webServer) .start trivial rfl) trivial rfl)
      trivial rfl) trivial rfl
  have hopened := (hresolved.next (e := .accept 1 "d") (by exact trivial) rfl).next (e := .accept 0 "b")
    (by exact trivial) rfl
  have hsecond := hopened.next (e := .reply 1) (by
    intro call id hat _
    cases hat
    intro _ _ status hlast
    cases hlast) rfl
  have hfailed := hsecond.next (e := .emit ⟨"d", .error, none⟩) (by exact trivial) rfl
  have hfirst := hfailed.next (e := .reply 0) (by
    intro call id hat _
    cases hat
    intro _ _ status hlast
    cases hlast) rfl
  have hsent := hfirst.next (e := .emit ⟨"b", .connected, none⟩) (by exact trivial) rfl
  have htold := hsent.next (e := .status) (by
    intro event rest c call hstatuses hat hreply
    cases hstatuses
    rcases c with _ | _ | c
    · cases hat
      exact absurd hreply (by decide)
    · cases hat
      rintro ⟨⟩
    · cases hat) rfl
  have hshown := htold.next (e := .status) (by
    intro event rest c call hstatuses hat hreply
    cases hstatuses
    rcases c with _ | _ | c
    · cases hat
      rintro ⟨⟩
    · cases hat
      exact absurd hreply (by decide)
    · cases hat) rfl
  exact ⟨_, _, hshown, rfl, rfl, status_shown hshown⟩

/-- A login fails at once, and its statuses come before the reply: they are dropped, and the terminal
session stays as if it were still connecting. -/
theorem status_dropped : ¬∀ h s, Reaches step (fun _ _ => True) initial h s → StatusShown h s := by
  intro hall
  obtain ⟨h, s, hreach, hcalls, hlast, hstatuses, hsession⟩ := Reaches.exists_history step initial
    (P := fun _ s => s.calls = [⟨.tab "a", webServer, .returned, .handled (.ok "b")⟩] ∧
      (statusesOf "b" s.handled).getLast? = some .error ∧ s.statuses.length = 0 ∧
      s.manager.sessionById "a" = some ⟨"a", "p", "web", .connecting⟩)
    (fun _ _ => true) (fun _ _ _ => trivial)
    [.connect "a" webServer, .resolved 0 (.ok (.mk webServer none)), .accept 0 "b",
      .emit ⟨"b", .connecting, none⟩, .emit ⟨"b", .error, none⟩, .status, .status, .reply 0] (by decide)
  have hat : s.At 0 ⟨.tab "a", webServer, .returned, .handled (.ok "b")⟩ := by
    unfold At
    rw [hcalls]
    rfl
  have hheard : s.Heard "b" := by
    intro event hmem
    rw [List.length_eq_zero_iff.mp hstatuses] at hmem
    cases hmem
  have hshown := hall h s hreach "b" 0 _ hat rfl hheard .error hlast _ hsession
  cases hshown

end Connections

end Portix.Connection
