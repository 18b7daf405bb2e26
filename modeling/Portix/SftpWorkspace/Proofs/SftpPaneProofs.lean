import Portix.SftpWorkspace.SftpWorkspaceController

/-!
# An SFTP pane owns one session

A step is taken apart into what it finds (`Taken`). Most steps leave alone which sessions there are and
which one is attached (`Same`); the others attach a profile, open a session or close one (`Owning`).
-/

namespace Portix.SftpWorkspace.SftpPane

open Lib

variable {platform : Platform} {s s' : SftpPane} {h o : List PaneObs} {event : PaneEvent} {k r : Nat}
  {call : Attach} {request : RemoteRequest} {id profileId : String}

/-- The steps there are, by what they find. -/
inductive Taken (platform : Platform) (s : SftpPane) : PaneEvent → SftpPane → List PaneObs → Prop where
  | attach (profile : Profiles.SshProfile) (path : String) :
      Taken platform s (.attachRemoteProfile (some profile) path)
        (((s.want profile).newAttach { profile := profile, path := path }).attach s.attaches.length
          { profile := profile, path := path }) []
  | clear {event : PaneEvent}
      (hevent : event = .clearRemoteSession ∨ ∃ path, event = .attachRemoteProfile none path) :
      Taken platform s event s.clearRemoteSession.1 s.closeAttached
  | reconnect (profile : Profiles.SshProfile) : Taken platform s (.reconnect profile)
      ((s.clearRemoteSession.1.want profile).newAttach
        { profile := profile, path := s.controller.remotePath, phase := .clearing }) s.closeAttached
  | submitPassword {password : String} {profile : Profiles.SshProfile}
      (hpending : s.controller.pendingProfile = some profile) : Taken platform s (.submitPassword password)
        { s.want profile with
          controller := { s.controller with pendingProfile := none, passwordSubmitting := true }
          attaches := s.attaches ++
            [{ profile := profile, path := "", submitting := true, phase := .saving password }] } []
  | cancelPasswordRequest : Taken platform s .cancelPasswordRequest
      { s with controller := s.controller.cancelPasswordRequest } []
  | beginLoading : Taken platform s .beginLoading { s with controller := s.controller.beginLoading } []
  | load {path sessionId : String} (hsession : s.controller.remoteSessionId = some sessionId) :
      Taken platform s (.loadRemoteDirectory path) (s.load sessionId path none) []
  | refresh {sessionId : String} (hsession : s.controller.remoteSessionId = some sessionId) :
      Taken platform s .refresh (s.refresh sessionId) []
  | searchRemote (rawQuery : String) : Taken platform s (.searchRemote rawQuery)
      { s with controller := s.controller.searchRemote rawQuery } []
  | clearRemoteSearch : Taken platform s .clearRemoteSearch
      { s with controller := s.controller.clearRemoteSearch } []
  | clearDisconnectionNotification : Taken platform s .clearDisconnectionNotification
      { s with controller := { s.controller with remoteDisconnectNotified := false } } []
  | dispose : Taken platform s .dispose s.dispose.1 s.closeAttached
  | cleared {k : Nat} {call : Attach} (hat : s.attaches[k]? = some call) :
      Taken platform s (.cleared k) (s.sessionCleared k call) []
  | saved {k : Nat} {call : Attach} {password : String} (hat : s.attaches[k]? = some call) :
      Taken platform s (.saved k true) (s.passwordSaved k call password) []
  | finished {event : PaneEvent} {k : Nat} {call : Attach} (hat : s.attaches[k]? = some call) :
      Taken platform s event (s.finish k call) []
  | proceed {k : Nat} {call : Attach} (hat : s.attaches[k]? = some call) :
      Taken platform s (.checked k (some true)) (s.proceed k call) []
  | askPassword {k : Nat} {call : Attach} (hat : s.attaches[k]? = some call) :
      Taken platform s (.checked k (some false)) (s.askPassword k call) []
  | refused {k : Nat} {call : Attach} {failure : String} (hat : s.attaches[k]? = some call) :
      Taken platform s (.connected k (.error failure)) (s.refused platform k call failure) []
  | accepted {k : Nat} {call : Attach} {id : String} (hat : s.attaches[k]? = some call)
      (hfresh : id ∉ s.used) :
      Taken platform s (.connected k (.ok id)) (s.accepted k call id).1 (s.accepted k call id).2
  | retry {k : Nat} {call : Attach} (hat : s.attaches[k]? = some call) :
      Taken platform s (.retried k (some true)) (s.retry k call) []
  | connectFailed {k : Nat} {call : Attach} {failure : String} (hat : s.attaches[k]? = some call) :
      Taken platform s (.retried k (some false))
        ((s.setConnectInProgress false).connectFailed platform k call failure) []
  | unresolved {r : Nat} {request : RemoteRequest} {path : String} (hat : s.requests[r]? = some request)
      (hphase : request.phase = .resolving path) : Taken platform s (.resolved r none)
      (endRequest (s.requestFailed request "Failed to resolve remote folder") r request none).1
      (endRequest (s.requestFailed request "Failed to resolve remote folder") r request none).2
  | resolved {r : Nat} {request : RemoteRequest} {path target : String}
      (hat : s.requests[r]? = some request) (hphase : request.phase = .resolving path) :
      Taken platform s (.resolved r (some target)) (s.setRequest r { request with phase := .listing target })
        []
  | unlisted {r : Nat} {request : RemoteRequest} {path : String} (hat : s.requests[r]? = some request)
      (hphase : request.phase = .listing path) : Taken platform s (.listed r none)
      (endRequest (s.requestFailed request "Failed to load remote folder") r request none).1
      (endRequest (s.requestFailed request "Failed to load remote folder") r request none).2
  | listed {r : Nat} {request : RemoteRequest} {path : String} {entries : List RemoteFileEntry}
      (hat : s.requests[r]? = some request) (hphase : request.phase = .listing path) :
      Taken platform s (.listed r (some entries))
        (endRequest (s.requestDone platform request path entries, []) r request (some (path, entries))).1 []
  | searchTimer {sessionId : String} {input : RemoteSearchInput}
      (hdebounce : s.controller.remoteSearchDebounce = some (sessionId, input)) : Taken platform s .searchTimer
      { s with
        controller := s.controller.startSearch
        searches := s.searches ++ [⟨sessionId, input, s.controller.remoteSearchToken + 1, .resolving⟩] } []
  | searchUnresolved {i : Nat} {search : SearchRequest} (hat : s.searches[i]? = some search)
      (hphase : search.phase = .resolving) : Taken platform s (.searchResolved i none)
      (s.setSearch i { search with phase := .over }
        (s.controller.searchUnresolved "Failed to resolve remote folder")) []
  | searchResolved {i : Nat} {search : SearchRequest} {path : String} (hat : s.searches[i]? = some search)
      (hphase : search.phase = .resolving) : Taken platform s (.searchResolved i (some path))
      (s.setSearch i { search with phase := .finding path } s.controller) []
  | notFound {i : Nat} {search : SearchRequest} {base : String} (hat : s.searches[i]? = some search)
      (hphase : search.phase = .finding base) : Taken platform s (.found i none)
      (s.setSearch i { search with phase := .over } (s.controller.searchFailed "Failed to find remote entries")) []
  | found {i : Nat} {search : SearchRequest} {base : String} {entries : List RemoteFileEntry}
      (hat : s.searches[i]? = some search) (hphase : search.phase = .finding base) :
      Taken platform s (.found i (some entries))
        (s.setSearch i { search with phase := .over } (s.controller.searchDone platform base entries)) []
  | dropped {id : String} : Taken platform s (.dropped id)
      ({ s with sessions := s.sessions.map fun session =>
        if session.id = id then { session with isConnected := false } else session } : SftpPane).notify []
  | sftpChanged : Taken platform s .sftpChanged s.notify []

theorem taken_of_submitPassword {password : String}
    (hstep : s.step platform (.submitPassword password) = some (s', o)) :
    Taken platform s (.submitPassword password) s' o := by
  unfold step at hstep
  dsimp only at hstep
  split at hstep
  · cases hstep
  · rename_i profile hpending
    cases hstep
    exact .submitPassword hpending

theorem taken_of_loadRemoteDirectory {path : String}
    (hstep : s.step platform (.loadRemoteDirectory path) = some (s', o)) :
    Taken platform s (.loadRemoteDirectory path) s' o := by
  unfold step at hstep
  dsimp only at hstep
  split at hstep
  · cases hstep
  · rename_i sessionId hsession
    cases hstep
    exact .load hsession

theorem taken_of_refresh (hstep : s.step platform .refresh = some (s', o)) : Taken platform s .refresh s' o := by
  unfold step at hstep
  dsimp only at hstep
  split at hstep
  · cases hstep
  · rename_i sessionId hsession
    cases hstep
    exact .refresh hsession

theorem taken_of_dispose (hstep : s.step platform .dispose = some (s', o)) : Taken platform s .dispose s' o := by
  unfold step at hstep
  dsimp only at hstep
  split at hstep
  · cases hstep
  · cases hstep
    exact .dispose

theorem taken_of_cleared (hstep : s.step platform (.cleared k) = some (s', o)) :
    Taken platform s (.cleared k) s' o := by
  unfold step at hstep
  dsimp only at hstep
  split at hstep
  · cases hstep
  · rename_i call hat
    split at hstep
    · cases hstep
      exact .cleared hat
    · cases hstep

theorem taken_of_saved {success : Bool} (hstep : s.step platform (.saved k success) = some (s', o)) :
    Taken platform s (.saved k success) s' o := by
  unfold step at hstep
  dsimp only at hstep
  split at hstep
  · cases hstep
  · rename_i call hat
    split at hstep
    · cases hstep
      cases success with
      | true => exact .saved hat
      | false => exact .finished hat
    · cases hstep

theorem taken_of_checked {hasSaved : Option Bool} (hstep : s.step platform (.checked k hasSaved) = some (s', o)) :
    Taken platform s (.checked k hasSaved) s' o := by
  unfold step at hstep
  dsimp only at hstep
  split at hstep
  · cases hstep
  · rename_i call hat
    split at hstep
    · split at hstep
      · cases hstep
        exact .finished hat
      · cases hstep
        exact .proceed hat
      · cases hstep
        exact .askPassword hat
    · cases hstep

theorem taken_of_connected {result : Except String String}
    (hstep : s.step platform (.connected k result) = some (s', o)) :
    Taken platform s (.connected k result) s' o := by
  unfold step at hstep
  dsimp only at hstep
  split at hstep
  · cases hstep
  · rename_i call hat
    split at hstep
    · split at hstep
      · cases hstep
        exact .refused hat
      · split at hstep
        · cases hstep
        · rename_i id hfresh
          obtain ⟨rfl, rfl⟩ := some_mk_inj hstep
          exact .accepted hat hfresh
    · cases hstep

theorem taken_of_retried {retry : Option Bool} (hstep : s.step platform (.retried k retry) = some (s', o)) :
    Taken platform s (.retried k retry) s' o := by
  unfold step at hstep
  dsimp only at hstep
  split at hstep
  · cases hstep
  · rename_i call hat
    split at hstep
    · split at hstep
      · cases hstep
        exact .finished hat
      · cases hstep
        exact .retry hat
      · cases hstep
        exact .connectFailed hat
    · cases hstep

theorem taken_of_resolved {path : Option String} (hstep : s.step platform (.resolved r path) = some (s', o)) :
    Taken platform s (.resolved r path) s' o := by
  unfold step at hstep
  dsimp only at hstep
  split at hstep
  · cases hstep
  · rename_i request hat
    split at hstep
    · rename_i target hphase
      split at hstep
      · cases hstep
        exact .unresolved hat hphase
      · cases hstep
        exact .resolved hat hphase
    · cases hstep

theorem taken_of_listed {entries : Option (List RemoteFileEntry)}
    (hstep : s.step platform (.listed r entries) = some (s', o)) : Taken platform s (.listed r entries) s' o := by
  unfold step at hstep
  dsimp only at hstep
  split at hstep
  · cases hstep
  · rename_i request hat
    split at hstep
    · rename_i path hphase
      split at hstep
      · cases hstep
        exact .unlisted hat hphase
      · cases hstep
        exact .listed hat hphase
    · cases hstep

theorem taken_of_searchTimer (hstep : s.step platform .searchTimer = some (s', o)) :
    Taken platform s .searchTimer s' o := by
  unfold step at hstep
  dsimp only at hstep
  split at hstep
  · cases hstep
  · rename_i sessionId input hdebounce
    cases hstep
    exact .searchTimer hdebounce

theorem taken_of_searchResolved {i : Nat} {path : Option String}
    (hstep : s.step platform (.searchResolved i path) = some (s', o)) :
    Taken platform s (.searchResolved i path) s' o := by
  unfold step at hstep
  dsimp only at hstep
  split at hstep
  · cases hstep
  · rename_i search hat
    split at hstep
    · rename_i hphase
      split at hstep
      · cases hstep
        exact .searchUnresolved hat hphase
      · cases hstep
        exact .searchResolved hat hphase
    · cases hstep

theorem taken_of_found {i : Nat} {entries : Option (List RemoteFileEntry)}
    (hstep : s.step platform (.found i entries) = some (s', o)) : Taken platform s (.found i entries) s' o := by
  unfold step at hstep
  dsimp only at hstep
  split at hstep
  · cases hstep
  · rename_i search hat
    split at hstep
    · rename_i base hphase
      split at hstep
      · cases hstep
        exact .notFound hat hphase
      · cases hstep
        exact .found hat hphase
    · cases hstep

theorem taken_of_dropped (hstep : s.step platform (.dropped id) = some (s', o)) :
    Taken platform s (.dropped id) s' o := by
  unfold step at hstep
  dsimp only at hstep
  split at hstep
  · cases hstep
    exact .dropped
  · cases hstep

/-- A step is one of those there are. -/
theorem taken_of_step (hstep : s.step platform event = some (s', o)) : Taken platform s event s' o := by
  cases event with
  | attachRemoteProfile profile path =>
    cases profile with
    | none =>
      cases hstep
      exact .clear (.inr ⟨path, rfl⟩)
    | some profile =>
      cases hstep
      exact .attach profile path
  | clearRemoteSession =>
    cases hstep
    exact .clear (.inl rfl)
  | reconnect profile =>
    cases hstep
    exact .reconnect profile
  | submitPassword password => exact taken_of_submitPassword hstep
  | cancelPasswordRequest =>
    cases hstep
    exact .cancelPasswordRequest
  | beginLoading =>
    cases hstep
    exact .beginLoading
  | loadRemoteDirectory path => exact taken_of_loadRemoteDirectory hstep
  | refresh => exact taken_of_refresh hstep
  | searchRemote rawQuery =>
    cases hstep
    exact .searchRemote rawQuery
  | clearRemoteSearch =>
    cases hstep
    exact .clearRemoteSearch
  | clearDisconnectionNotification =>
    cases hstep
    exact .clearDisconnectionNotification
  | dispose => exact taken_of_dispose hstep
  | cleared k => exact taken_of_cleared hstep
  | saved k success => exact taken_of_saved hstep
  | checked k hasSaved => exact taken_of_checked hstep
  | connected k result => exact taken_of_connected hstep
  | retried k retry => exact taken_of_retried hstep
  | resolved r path => exact taken_of_resolved hstep
  | listed r entries => exact taken_of_listed hstep
  | searchTimer => exact taken_of_searchTimer hstep
  | searchResolved i path => exact taken_of_searchResolved hstep
  | found i entries => exact taken_of_found hstep
  | dropped id => exact taken_of_dropped hstep
  | sftpChanged =>
    cases hstep
    exact .sftpChanged

section Controller

variable (c : SftpWorkspaceController)

theorem remoteSessionId_beginLoading : c.beginLoading.remoteSessionId = c.remoteSessionId := by
  unfold SftpWorkspaceController.beginLoading
  split
  · rfl
  · rfl

theorem remoteSessionId_startConnect (path : String) : (c.startConnect path).remoteSessionId = c.remoteSessionId := rfl

theorem remoteSessionId_askPassword (profile : Profiles.SshProfile) (path : String) :
    (c.askPassword profile path).remoteSessionId = c.remoteSessionId := rfl

theorem remoteSessionId_undoBeginLoading : c.undoBeginLoading.remoteSessionId = c.remoteSessionId := by
  unfold SftpWorkspaceController.undoBeginLoading
  split
  · rfl
  · rfl

theorem remoteSessionId_cancelPasswordRequest : c.cancelPasswordRequest.remoteSessionId = c.remoteSessionId := by
  unfold SftpWorkspaceController.cancelPasswordRequest
  split
  · rfl
  · rfl

theorem remoteSessionId_connectFailed (profile : Profiles.SshProfile) (failure : String) :
    (c.connectFailed platform profile failure).remoteSessionId = c.remoteSessionId := by
  unfold SftpWorkspaceController.connectFailed
  split
  · rfl
  · rfl

theorem remoteSessionId_requestFailed (navigation : Bool) (message : String) :
    (c.requestFailed navigation message).remoteSessionId = c.remoteSessionId := by
  unfold SftpWorkspaceController.requestFailed
  split
  · rfl
  · rfl

theorem remoteSessionId_requestDone (navigation : Bool) (path : String) (entries : List RemoteFileEntry) :
    (c.requestDone platform navigation path entries).remoteSessionId = c.remoteSessionId := by
  unfold SftpWorkspaceController.requestDone
  split
  · rfl
  · rfl

theorem remoteSessionId_handleSftpChanged (session : Option SftpSession) :
    (c.handleSftpChanged session).remoteSessionId = c.remoteSessionId := by
  unfold SftpWorkspaceController.handleSftpChanged
  split
  · rfl
  · split
    · rfl
    · split
      · rfl
      · rfl

theorem remoteSessionId_clearRemoteSearch : c.clearRemoteSearch.remoteSessionId = c.remoteSessionId := by
  unfold SftpWorkspaceController.clearRemoteSearch
  split
  · rfl
  · rfl

theorem remoteSessionId_searchRemote (rawQuery : String) :
    (c.searchRemote rawQuery).remoteSessionId = c.remoteSessionId := by
  unfold SftpWorkspaceController.searchRemote
  split
  · rfl
  · split
    · exact remoteSessionId_clearRemoteSearch c
    · rfl

theorem remoteSessionId_recordRemoteFailure : c.recordRemoteFailure.remoteSessionId = c.remoteSessionId := by
  unfold SftpWorkspaceController.recordRemoteFailure
  split
  · rfl
  · rfl

end Controller

def keys (s : SftpPane) : List (String × String) :=
  s.sessions.map fun session => (session.id, session.profileId)

/-- A step that leaves alone which sessions there are, which is attached and what is wanted. -/
structure Same (s s' : SftpPane) : Prop where
  keys : s'.keys = s.keys
  session : s'.controller.remoteSessionId = s.controller.remoteSessionId
  wanted : s'.wanted = s.wanted
  used : s'.used = s.used

namespace Same

theorem of_sessions (hsessions : s'.sessions = s.sessions)
    (hsession : s'.controller.remoteSessionId = s.controller.remoteSessionId)
    (hwanted : s'.wanted = s.wanted) (hused : s'.used = s.used) : Same s s' := by
  refine ⟨?_, hsession, hwanted, hused⟩
  unfold SftpPane.keys
  rw [hsessions]

theorem refl (s : SftpPane) : Same s s := of_sessions rfl rfl rfl rfl

theorem trans {s'' : SftpPane} (hfirst : Same s s') (hsecond : Same s' s'') : Same s s'' :=
  ⟨hsecond.keys.trans hfirst.keys, hsecond.session.trans hfirst.session,
    hsecond.wanted.trans hfirst.wanted, hsecond.used.trans hfirst.used⟩

theorem controller {c : SftpWorkspaceController} (hsession : c.remoteSessionId = s.controller.remoteSessionId) :
    Same s { s with controller := c } := .of_sessions rfl hsession rfl rfl

theorem notify (s : SftpPane) : Same s s.notify := by
  unfold SftpPane.notify
  split
  · exact .refl s
  · exact .controller (remoteSessionId_handleSftpChanged s.controller s.attached)

theorem finish (s : SftpPane) (k : Nat) (call : Attach) : Same s (s.finish k call) := .of_sessions rfl rfl rfl rfl

theorem setAttach (s : SftpPane) (k : Nat) (call : Attach) : Same s (s.setAttach k call) :=
  .of_sessions rfl rfl rfl rfl

theorem load (s : SftpPane) (sessionId path : String) (caller : Option Nat) :
    Same s (s.load sessionId path caller) := .of_sessions rfl rfl rfl rfl

theorem proceed (s : SftpPane) (k : Nat) (call : Attach) : Same s (s.proceed k call) := by
  unfold SftpPane.proceed
  split
  · exact .finish s k call
  · exact .of_sessions rfl (remoteSessionId_startConnect s.controller call.normalizedPath) rfl rfl

theorem reattach (s : SftpPane) (k : Nat) (call : Attach) (sessionId : String) :
    Same s (s.reattach k call sessionId) := by
  unfold SftpPane.reattach
  split
  · split
    · exact .of_sessions rfl rfl rfl rfl
    · split
      · exact .of_sessions rfl rfl rfl rfl
      · exact (Same.controller (remoteSessionId_undoBeginLoading s.controller)).trans (.finish _ k call)
  · exact .of_sessions rfl rfl rfl rfl

theorem attachOther (s : SftpPane) (k : Nat) (call : Attach) : Same s (s.attachOther k call) := by
  unfold SftpPane.attachOther
  split
  · split
    · exact .finish s k call
    · exact .of_sessions rfl rfl rfl rfl
  · exact .proceed s k call

theorem attach (s : SftpPane) (k : Nat) (call : Attach) : Same s (s.attach k call) := by
  have hsteps : Same s s.showSteps := .controller rfl
  unfold SftpPane.attach
  split
  · split
    · exact hsteps.trans (.reattach _ k call _)
    · exact hsteps.trans (.attachOther _ k call)
  · exact hsteps.trans (.attachOther _ k call)

theorem connectFailed (s : SftpPane) (k : Nat) (call : Attach) (failure : String) :
    Same s (s.connectFailed platform k call failure) :=
  (Same.controller (remoteSessionId_connectFailed s.controller call.profile failure)).trans
    (.finish _ k call)

theorem refused (s : SftpPane) (k : Nat) (call : Attach) (failure : String) :
    Same s (s.refused platform k call failure) := by
  unfold SftpPane.refused
  split
  · exact .of_sessions rfl rfl rfl rfl
  · have hset : Same s (s.setConnectInProgress false) := .controller rfl
    exact hset.trans (.connectFailed _ k call failure)

theorem resume (s : SftpPane) (caller : Option Nat) : Same s (s.resume caller) := by
  unfold SftpPane.resume
  split
  · exact .refl s
  · split
    · exact .refl s
    · split
      · exact (Same.controller (remoteSessionId_undoBeginLoading s.controller)).trans (.finish _ _ _)
      · exact .finish s _ _
      · exact .refl s

theorem requestDone (s : SftpPane) (request : RemoteRequest) (path : String)
    (entries : List RemoteFileEntry) : Same s (s.requestDone platform request path entries) := by
  unfold SftpPane.requestDone
  split
  · exact .controller (remoteSessionId_requestDone s.controller request.navigation path entries)
  · exact .refl s

theorem setSearch {c : SftpWorkspaceController} (s : SftpPane) (i : Nat) (search : SearchRequest)
    (hsession : c.remoteSessionId = s.controller.remoteSessionId) : Same s (s.setSearch i search c) := by
  refine .of_sessions rfl ?_ rfl rfl
  show (if _ then c else s.controller).remoteSessionId = _
  split
  · exact hsession
  · rfl

end Same

/-- What a step does to the sessions. -/
inductive Owning (s : SftpPane) : SftpPane → List PaneObs → Prop where
  | same {s' : SftpPane} (hsame : Same s s') : Owning s s' []
  | want {s' : SftpPane} {profile : Profiles.SshProfile} (hfree : s.Free profile.id)
      (hsame : Same (s.want profile) s') : Owning s s' []
  | clear {s' : SftpPane} (hkeys : s'.keys =
      s.keys.filter fun key => s.controller.remoteSessionId ≠ some key.1)
      (hused : s'.used = s.used) : Owning s s' s.closeAttached
  | opened {s' : SftpPane} {id profileId : String} (hwanted : s.wanted = some profileId)
      (hfree : ∀ key ∈ s.keys, s.controller.remoteSessionId ≠ some key.1)
      (hkeys : s'.keys = s.keys ++ [(id, profileId)])
      (hsession : s'.controller.remoteSessionId = some id) (hwanted' : s'.wanted = s.wanted)
      (hused : s'.used = s.used ++ [id]) : Owning s s' [.opened id profileId]
  | closed {s' : SftpPane} {id profileId : String} (hkeys : s'.keys = s.keys)
      (hsession : s'.controller.remoteSessionId = s.controller.remoteSessionId)
      (hwanted : s'.wanted = s.wanted) (hused : s'.used = s.used ++ [id]) :
      Owning s s' [.opened id profileId, .closed id]
  | failed {s' : SftpPane} {id : String} (hkeys : s'.keys = s.keys.filter fun key => key.1 ≠ id)
      (hsession : s'.controller.remoteSessionId = s.controller.remoteSessionId)
      (hwanted : s'.wanted = s.wanted) (hused : s'.used = s.used) : Owning s s' [.closed id]

theorem keys_filter (p : String → Bool) (s : SftpPane) :
    (s.sessions.filter fun session => p session.id).map (fun session => (session.id, session.profileId)) =
      s.keys.filter fun key => p key.1 := by
  unfold keys
  rw [List.filter_map]
  rfl

theorem keys_clear : ({ s with sessions := s.sessions.filter fun session =>
    s.controller.remoteSessionId ≠ some session.id } : SftpPane).keys =
      s.keys.filter fun key => s.controller.remoteSessionId ≠ some key.1 :=
  keys_filter (fun id => decide (s.controller.remoteSessionId ≠ some id)) s

theorem keys_close (s : SftpPane) (id : String) : (s.close id).keys = s.keys.filter fun key => key.1 ≠ id :=
  keys_filter (fun other => decide (other ≠ id)) s

theorem keys_setSession (s : SftpPane) (id : String) (profile : Profiles.SshProfile) :
    (s.setSession id profile).keys = s.keys := rfl

/-- The ids of the sessions are taken. -/
def Used (s : SftpPane) : Prop := ∀ key ∈ s.keys, key.1 ∈ s.used

theorem opened_session (s : SftpPane) (id profileId : String) :
    Same { s with sessions := s.sessions ++ [⟨id, profileId, true⟩], used := s.used ++ [id] }
      (s.openSession id profileId) := .notify _

theorem owning_accepted (hused : Used s) (hfresh : id ∉ s.used)
    (hsettled : s.controller.isDisposed = false → s.wanted = some call.profile.id ∧
      ∀ session ∈ s.sessions, s.controller.remoteSessionId ≠ some session.id) :
    Owning s (s.accepted k call id).1 (s.accepted k call id).2 := by
  have hopened := opened_session s id call.profile.id
  have hkeys : (s.openSession id call.profile.id).keys = s.keys ++ [(id, call.profile.id)] := by
    rw [hopened.keys]
    exact List.map_append
  have hset : Same (s.openSession id call.profile.id)
      ((s.openSession id call.profile.id).setConnectInProgress false) := .controller rfl
  unfold accepted
  split
  · have hfinish := Same.finish (((s.openSession id call.profile.id).setConnectInProgress false).close id) k call
    refine .closed (hfinish.keys.trans ?_) (hfinish.session.trans (hset.session.trans hopened.session))
      (hfinish.wanted.trans (hset.wanted.trans hopened.wanted))
      (hfinish.used.trans (hset.used.trans hopened.used))
    rw [keys_close, hset.keys, hkeys]
    have hkept : (s.keys.filter fun key => key.1 ≠ id) = s.keys := by
      apply List.filter_eq_self.mpr
      intro key hmem
      refine decide_eq_true ?_
      rintro rfl
      exact hfresh (hused key hmem)
    rw [List.filter_append, hkept, List.filter_cons_of_neg (by simp), List.filter_nil, List.append_nil]
  · rename_i hdisposed
    obtain ⟨hwanted, hfree⟩ := hsettled (by simpa using hdisposed)
    have hattach := Same.setAttach (((s.openSession id call.profile.id).setConnectInProgress false).setSession
      id call.profile) k { call with phase := .loading false }
    have hload := hattach.trans (.load _ id s.controller.remotePath (some k))
    refine .opened hwanted ?_ ?_ hload.session (hload.wanted.trans (hset.wanted.trans hopened.wanted))
      (hload.used.trans (hset.used.trans hopened.used))
    case refine_2 => rw [hload.keys, keys_setSession, hset.keys, hkeys]
    intro key hmem
    obtain ⟨session, hsession, rfl⟩ := List.mem_map.mp hmem
    exact hfree session hsession

theorem owning_requestFailed (message : String) :
    Owning s (endRequest (s.requestFailed request message) r request none).1
      (endRequest (s.requestFailed request message) r request none).2 := by
  have hend : ∀ {s'}, Same s' ((s'.setRequest r { request with phase := .over none }).resume request.caller) := by
    intro s'
    have hset : Same s' (s'.setRequest r { request with phase := .over none }) := .of_sessions rfl rfl rfl rfl
    exact hset.trans (.resume _ request.caller)
  have hfailed : Same s { s with controller := s.controller.requestFailed request.navigation message } :=
    .controller (remoteSessionId_requestFailed s.controller request.navigation message)
  have hrecord := remoteSessionId_recordRemoteFailure
    (s.controller.requestFailed request.navigation message)
  unfold endRequest requestFailed recordRemoteFailure
  split
  · split
    · exact .same (hfailed.trans hend)
    · split
      · refine .failed ?_ (hend.session.trans (hrecord.trans hfailed.session))
          (hend.wanted.trans hfailed.wanted) (hend.used.trans hfailed.used)
        exact hend.keys.trans (keys_close _ request.sessionId)
      · exact .same ((hfailed.trans (.controller hrecord)).trans hend)
  · exact .same hend

theorem owning_of_taken (hused : Used s) (hsettled : Settled s event)
    (htaken : Taken platform s event s' o) : Owning s s' o := by
  cases htaken with
  | attach profile path =>
    have hnew : Same (s.want profile) ((s.want profile).newAttach { profile := profile, path := path }) :=
      .of_sessions rfl rfl rfl rfl
    exact .want hsettled (hnew.trans (.attach _ _ _))
  | clear hevent => exact .clear keys_clear rfl
  | reconnect profile => exact .clear keys_clear rfl
  | submitPassword hpending => exact .want (hsettled _ hpending) (.of_sessions rfl rfl rfl rfl)
  | cancelPasswordRequest => exact .same (.controller (remoteSessionId_cancelPasswordRequest s.controller))
  | beginLoading => exact .same (.controller (remoteSessionId_beginLoading s.controller))
  | load hsession => exact .same (.of_sessions rfl rfl rfl rfl)
  | refresh hsession => exact .same (.of_sessions rfl rfl rfl rfl)
  | searchRemote rawQuery => exact .same (.controller (remoteSessionId_searchRemote s.controller rawQuery))
  | clearRemoteSearch => exact .same (.controller (remoteSessionId_clearRemoteSearch s.controller))
  | clearDisconnectionNotification => exact .same (.of_sessions rfl rfl rfl rfl)
  | dispose => exact .clear keys_clear rfl
  | cleared hat =>
    have hbegin : Same s { s with controller := s.controller.beginLoading } :=
      .controller (remoteSessionId_beginLoading s.controller)
    exact .same (hbegin.trans (.attach _ _ _))
  | saved hat => exact .same (.attach s _ _)
  | finished hat => exact .same (.finish s _ _)
  | proceed hat => exact .same (.proceed s _ _)
  | @askPassword k call hat =>
    have hasked := remoteSessionId_askPassword s.controller call.profile call.normalizedPath
    exact .same ((Same.controller hasked).trans (.finish _ k call))
  | refused hat => exact .same (.refused s _ _ _)
  | accepted hat hfresh => exact owning_accepted hused hfresh (hsettled _ hat)
  | retry hat =>
    have hset : Same s (s.setConnectInProgress false) := .controller rfl
    exact .same (hset.trans (.attach _ _ _))
  | connectFailed hat =>
    have hset : Same s (s.setConnectInProgress false) := .controller rfl
    exact .same (hset.trans (.connectFailed _ _ _ _))
  | unresolved hat hphase => exact owning_requestFailed _
  | resolved hat hphase => exact .same (.of_sessions rfl rfl rfl rfl)
  | unlisted hat hphase => exact owning_requestFailed _
  | @listed r request path entries hat hphase =>
    have hset : Same (s.requestDone platform request path entries)
        ((s.requestDone platform request path entries).setRequest r
          { request with phase := .over (some (path, entries)) }) := .of_sessions rfl rfl rfl rfl
    exact .same (((Same.requestDone s request path entries).trans hset).trans (.resume _ request.caller))
  | searchTimer hdebounce => exact .same (.of_sessions rfl rfl rfl rfl)
  | searchUnresolved hat hphase => exact .same (.setSearch s _ _ rfl)
  | searchResolved hat hphase => exact .same (.setSearch s _ _ rfl)
  | notFound hat hphase => exact .same (.setSearch s _ _ rfl)
  | found hat hphase => exact .same (.setSearch s _ _ rfl)
  | @dropped id =>
    have hkeys : ({ s with sessions := s.sessions.map fun session =>
        if session.id = id then { session with isConnected := false } else session } : SftpPane).keys = s.keys := by
      unfold keys
      rw [List.map_map]
      apply List.map_congr_left
      intro session _
      show (fun session : SftpSession => (session.id, session.profileId))
        (if session.id = id then { session with isConnected := false } else session) = _
      split
      · rfl
      · rfl
    have hdropped : Same s { s with sessions := s.sessions.map fun session =>
        if session.id = id then { session with isConnected := false } else session } :=
      ⟨hkeys, rfl, rfl, rfl⟩
    exact .same (hdropped.trans (.notify _))
  | sftpChanged => exact .same (.notify s)

/-- What is open is attached and wanted, and what was opened is open or closed. -/
structure Owned (h : List PaneObs) (s : SftpPane) : Prop where
  used : Used s
  attached : ∀ key ∈ s.keys, s.controller.remoteSessionId = some key.1 ∧ s.wanted = some key.2
  accounted : ∀ id profileId, .opened id profileId ∈ h → .closed id ∈ h ∨ (id, profileId) ∈ s.keys

theorem Owned.step (hinv : Owned h s) (howning : Owning s s' o) : Owned (h ++ o) s' := by
  cases howning with
  | same hsame =>
    rw [List.append_nil]
    constructor
    · intro key hmem
      rw [hsame.used]
      exact hinv.used key (hsame.keys ▸ hmem)
    · intro key hmem
      rw [hsame.session, hsame.wanted]
      exact hinv.attached key (hsame.keys ▸ hmem)
    · intro id profileId hopened
      rw [hsame.keys]
      exact hinv.accounted id profileId hopened
  | @want profile hfree hsame =>
    rw [List.append_nil]
    have hkeys : s'.keys = s.keys := hsame.keys
    have hsession : s'.controller.remoteSessionId = s.controller.remoteSessionId := hsame.session
    constructor
    · intro key hmem
      rw [hsame.used]
      exact hinv.used key (hkeys ▸ hmem)
    · intro key hmem
      rw [hkeys] at hmem
      have hattached := (hinv.attached key hmem).1
      obtain ⟨session, hsession', rfl⟩ := List.mem_map.mp hmem
      rw [hsession, hsame.wanted]
      exact ⟨hattached, congrArg some (hfree session hsession' hattached).symm⟩
    · intro id profileId hopened
      rw [hkeys]
      exact hinv.accounted id profileId hopened
  | clear hkeys hused =>
    have hnone : s'.keys = [] := by
      rw [hkeys]
      apply List.filter_eq_nil_iff.mpr
      intro key hmem
      simp [(hinv.attached key hmem).1]
    constructor
    · intro key hmem
      rw [hnone] at hmem
      cases hmem
    · intro key hmem
      rw [hnone] at hmem
      cases hmem
    · intro id profileId hopened
      rcases List.mem_append.mp hopened with hbefore | hnow
      · rcases hinv.accounted id profileId hbefore with hclosed | hmem
        · exact .inl (List.mem_append_left _ hclosed)
        · refine .inl (List.mem_append_right _ ?_)
          unfold closeAttached
          rw [(hinv.attached _ hmem).1]
          exact List.mem_singleton_self _
      · obtain ⟨session, -, ⟨⟩⟩ := Option.map_eq_some_iff.mp (Option.mem_toList.mp hnow)
  | @opened id profileId hwanted hfree hkeys hsession hwanted' hused =>
    have hnone : s.keys = [] := by
      rw [List.eq_nil_iff_forall_not_mem]
      intro key hmem
      exact hfree key hmem (hinv.attached key hmem).1
    rw [hnone, List.nil_append] at hkeys
    constructor
    · intro key hmem
      rw [hkeys] at hmem
      rw [List.mem_singleton.mp hmem, hused]
      simp
    · intro key hmem
      rw [hkeys] at hmem
      rw [List.mem_singleton.mp hmem, hwanted']
      exact ⟨hsession, hwanted⟩
    · intro other profileId' hopened
      rcases List.mem_append.mp hopened with hbefore | hnow
      · rcases hinv.accounted other profileId' hbefore with hclosed | hmem
        · exact .inl (List.mem_append_left _ hclosed)
        · rw [hnone] at hmem
          cases hmem
      · cases List.mem_singleton.mp hnow
        rw [hkeys]
        exact .inr (List.mem_singleton_self _)
  | @closed id profileId hkeys hsession hwanted hused =>
    constructor
    · intro key hmem
      rw [hused]
      exact List.mem_append_left _ (hinv.used key (hkeys ▸ hmem))
    · intro key hmem
      rw [hsession, hwanted]
      exact hinv.attached key (hkeys ▸ hmem)
    · intro other profileId' hopened
      rcases List.mem_append.mp hopened with hbefore | hnow
      · rw [hkeys]
        rcases hinv.accounted other profileId' hbefore with hclosed | hmem
        · exact .inl (List.mem_append_left _ hclosed)
        · exact .inr hmem
      · have hother : other = id := by
          simp at hnow
          exact hnow.1
        rw [hother]
        exact .inl (by simp)
  | @failed id hkeys hsession hwanted hused =>
    constructor
    · intro key hmem
      rw [hused]
      rw [hkeys] at hmem
      exact hinv.used key (List.mem_of_mem_filter hmem)
    · intro key hmem
      rw [hsession, hwanted]
      rw [hkeys] at hmem
      exact hinv.attached key (List.mem_of_mem_filter hmem)
    · intro other profileId' hopened
      rcases List.mem_append.mp hopened with hbefore | hnow
      · rcases hinv.accounted other profileId' hbefore with hclosed | hmem
        · exact .inl (List.mem_append_left _ hclosed)
        · by_cases hsame : other = id
          · rw [hsame]
            exact .inl (by simp)
          · rw [hkeys]
            exact .inr (List.mem_filter.mpr ⟨hmem, decide_eq_true hsame⟩)
      · simp at hnow

theorem owns_one {resolvesFailures : Bool}
    (hreach : Reaches (step platform) Settled (initial resolvesFailures) h s) : OwnsOne h s := by
  have hinv : Owned h s := by
    refine hreach.invariant (I := Owned) ?_ ?_
    · constructor
      · rintro key ⟨⟩
      · rintro key ⟨⟩
      · rintro id profileId ⟨⟩
    · intro h s event s' o hinv hsettled hstep
      have htaken : Taken platform s event s' o := taken_of_step hstep
      exact hinv.step (owning_of_taken hinv.used hsettled htaken)
  intro id profileId hopened
  rcases hinv.accounted id profileId hopened with hclosed | hmem
  · exact .inl hclosed
  · exact .inr (hinv.attached _ hmem)

def keyProfile (id : String) : Profiles.SshProfile where
  id := id
  name := id
  host := "web"
  port := 22
  username := "me"
  group := ""
  tags := []
  authMethod := .sshKey
  credentialLabel := "~/.ssh/id"
  defaultPath := "~"
  status := .offline
  color := .green

def plainPlatform : Platform where
  toLowerCase := fun text => String.ofList (text.toList.map Char.toLower)
  formatFileSize := fun bytes => if bytes ≤ 0 then "-" else toString bytes.toInt ++ " B"
  formatUnixDate := fun _ => "-"
  sortRows := fun rows => rows

theorem forall_session {P : SftpSession → Prop} (hnone : s.sessions = []) : ∀ session ∈ s.sessions, P session := by
  rw [hnone]
  exact fun _ hmem => absurd hmem List.not_mem_nil

/-- A profile is attached, and another one once the pane is cleared. -/
theorem owns_one_after_another : ∃ h s, Reaches (step plainPlatform) Settled (initial true) h s ∧
    h = [.opened "a" "p", .closed "a", .opened "b" "q"] ∧ OwnsOne h s := by
  have hfirst : Reaches (step plainPlatform) Settled (initial true) _ _ :=
    .next (e := .attachRemoteProfile (some (keyProfile "p")) "~") .start (by exact forall_session rfl) rfl
  have hopened := hfirst.next (e := .connected 0 (.ok "a")) (by
    intro call hat _
    cases hat
    exact ⟨rfl, forall_session rfl⟩) rfl
  have hcleared := hopened.next (e := .clearRemoteSession) (by exact trivial) rfl
  have hsecond := hcleared.next (e := .attachRemoteProfile (some (keyProfile "q")) "~")
    (by exact forall_session rfl) rfl
  have hother := hsecond.next (e := .connected 1 (.ok "b")) (by
    intro call hat _
    cases hat
    exact ⟨rfl, forall_session rfl⟩) rfl
  exact ⟨_, _, hother, rfl, owns_one hother⟩

/-- The pane is cleared while it connects: the session is attached all the same. -/
theorem attached_after_clear : ¬∀ h s,
    Reaches (step plainPlatform) (fun _ _ => True) (initial true) h s → OwnsOne h s := by
  intro hall
  obtain ⟨h, s, hreach, hh, hwanted⟩ := Reaches.exists_history (step plainPlatform) (initial true)
    (P := fun h s => h = [.opened "a" "p"] ∧ s.wanted = none) (fun _ _ => true) (fun _ _ _ => trivial)
    [.attachRemoteProfile (some (keyProfile "p")) "~", .clearRemoteSession, .connected 0 (.ok "a")]
    (by decide)
  rw [hh] at hreach
  rcases hall _ s hreach "a" "p" (by simp) with hclosed | ⟨-, hwanted'⟩
  · simp at hclosed
  · cases hwanted.symm.trans hwanted'

end Portix.SftpWorkspace.SftpPane
