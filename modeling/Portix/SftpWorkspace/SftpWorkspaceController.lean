import Portix.Connection.Credentials

/-!
# The controller of an SFTP pane

`SftpWorkspaceController` of `sftp_workspace_controller.dart` and the sessions that it has open in
`SftpManager`. Its methods are cut at their awaits: what they wait for comes in any order.
-/

namespace Portix.SftpWorkspace

open Lib

open Profiles (AuthMethod)

structure RemoteFileEntry where
  name : String
  path : String
  isDirectory : Bool
  sizeBytes : Int64
  modifiedUnixSeconds : Int64 := 0
  mode : Int64 := 0

structure SftpFileEntry where
  name : String
  size : String
  modified : String
  path : Option String := none
  location : Option String := none
  type : String := "file"
  folder : Bool := false
  chmodMode : Option String := none
  sizeBytes : Int64 := 0
  modifiedAt : Option Int64 := none

structure Platform where
  toLowerCase : String → String
  formatFileSize : Int64 → String
  formatUnixDate : Int64 → String
  sortRows : List SftpFileEntry → List SftpFileEntry

def parentRemotePath (path : String) : String :=
  let normalized := dartTrim path
  if normalized = "" then "~"
  else if normalized = "/" ∨ normalized = "~" then normalized
  else
    let parts := (splitChar '/' normalized).filter fun part => part ≠ ""
    if parts.length ≤ 1 then "/" else "/" ++ "/".intercalate (parts.take (parts.length - 1))

def chmodText (mode : Int64) : Option String :=
  if mode = 0 then none
  else
    let digits := Nat.toDigits 8 (mode &&& 0x1FF).toInt.toNat
    some (String.ofList (List.replicate (3 - digits.length) '0' ++ digits))

def fileRow (platform : Platform) (entry : RemoteFileEntry) : SftpFileEntry where
  name := entry.name
  path := some entry.path
  size := if entry.isDirectory then "-" else platform.formatFileSize entry.sizeBytes
  modified := platform.formatUnixDate entry.modifiedUnixSeconds
  type := if entry.isDirectory then "dir" else "file"
  folder := entry.isDirectory
  chmodMode := chmodText entry.mode
  sizeBytes := if entry.isDirectory then 0 else entry.sizeBytes
  modifiedAt := some (entry.modifiedUnixSeconds * 1000)

def parentRow (currentPath : String) : SftpFileEntry where
  name := ".."
  path := some (parentRemotePath currentPath)
  size := "-"
  modified := "-"
  type := "dir"
  folder := true

def mapRemoteRows (platform : Platform) (currentPath : String) (entries : List RemoteFileEntry) :
    List SftpFileEntry :=
  platform.sortRows
    ((if currentPath ≠ "/" ∧ dartTrim currentPath ≠ "" then [parentRow currentPath] else []) ++
      entries.map (fileRow platform))

def mapSearchResult (platform : Platform) (entry : RemoteFileEntry) : SftpFileEntry :=
  { fileRow platform entry with location := some (parentRemotePath entry.path) }

inductive RemoteStatus where
  | idle
  | authenticating
  | connecting
  | listing
  | connected
  | disconnected
  | failed
  deriving DecidableEq

structure RemoteSearch where
  rows : List SftpFileEntry := []
  query : String := ""
  base : String := "~"
  error : Option String := none
  searching : Bool := false

structure RemoteSearchInput where
  base : String
  query : String

/-- What a pane shows: its session, folder, entries and search. -/
structure SftpWorkspaceController where
  remotePath : String := "~"
  remoteRows : List SftpFileEntry := []
  search : RemoteSearch := {}
  remoteError : Option String := none
  remoteStatus : RemoteStatus := .idle
  loadingRemote : Bool := false
  remoteSessionId : Option String := none
  remoteProfileId : Option String := none
  remoteProfileName : Option String := none
  pendingProfile : Option Profiles.SshProfile := none
  passwordSubmitting : Bool := false
  didAuthenticate : Bool := false
  remoteConsecutiveFailures : Nat := 0
  remoteLoadToken : Nat := 0
  remoteSearchToken : Nat := 0
  remoteSearchDebounce : Option (String × RemoteSearchInput) := none
  remoteDisconnectNotified : Bool := false
  connectInProgress : Bool := false
  showConnectionSteps : Bool := false
  isDisposed : Bool := false

structure SftpSession where
  id : String
  profileId : String
  isConnected : Bool := true

namespace SftpWorkspaceController

variable (c : SftpWorkspaceController)

def clearRemoteSearchState : SftpWorkspaceController :=
  { c with search := { base := c.remotePath } }

def beginLoading : SftpWorkspaceController :=
  if c.loadingRemote then c
  else { c with
    loadingRemote := true
    remoteStatus := .connecting
    showConnectionSteps := true
    remoteError := none }

/-- What `attachRemoteProfile` does last with a session that is still good. -/
def undoBeginLoading : SftpWorkspaceController :=
  if c.loadingRemote ∧ c.remoteStatus = .connecting then
    { c with loadingRemote := false, showConnectionSteps := false, remoteStatus := .connected }
  else c

def connectionLost : SftpWorkspaceController :=
  { c with
    remoteError := some (c.remoteError.getD "Remote connection lost.")
    remoteStatus := .disconnected
    remoteDisconnectNotified := true }

def askPassword (profile : Profiles.SshProfile) (path : String) :
    SftpWorkspaceController :=
  { c with
    pendingProfile := some profile
    remoteProfileId := some profile.id
    remoteProfileName := some profile.name
    remotePath := path
    remoteStatus := .authenticating
    loadingRemote := true
    remoteError := none
    didAuthenticate := true }

def startConnect (path : String) : SftpWorkspaceController :=
  { c with
    remotePath := path
    loadingRemote := true
    remoteStatus := .connecting
    remoteError := none
    connectInProgress := true }

def isAuthError (platform : Platform) (error : String) : Bool :=
  ["password", "auth", "credential", "permission denied", "access denied"].any fun word =>
    decide (word.toList <:+: (platform.toLowerCase error).toList)

def isTimeoutError (platform : Platform) (error : String) : Bool :=
  ["timeout", "timed out", "timedout"].any fun word =>
    decide (word.toList <:+: (platform.toLowerCase error).toList)

def connectFailed (platform : Platform) (profile : Profiles.SshProfile)
    (failure : String) : SftpWorkspaceController :=
  if profile.authMethod = .password ∧ isAuthError platform failure then
    { c with
      pendingProfile := some profile
      remoteStatus := .authenticating
      loadingRemote := true
      remoteError := some "Authentication failed" }
  else { c with
    loadingRemote := false
    remoteStatus := .failed
    remoteError := some (if isTimeoutError platform failure then "Connection timeout" else failure) }

def clearRemoteSession : SftpWorkspaceController :=
  { (({ c with
      remoteSessionId := none
      remoteProfileId := none
      remoteProfileName := none
      pendingProfile := none
      didAuthenticate := false
      passwordSubmitting := false
      remoteRows := [] } : SftpWorkspaceController).clearRemoteSearchState) with
    remoteError := none
    loadingRemote := false
    remoteStatus := .idle
    remoteDisconnectNotified := false
    connectInProgress := false
    showConnectionSteps := false
    remoteConsecutiveFailures := 0
    remoteLoadToken := c.remoteLoadToken + 1
    remoteSearchToken := c.remoteSearchToken + 1 }

def cancelPasswordRequest : SftpWorkspaceController :=
  if c.remoteStatus ≠ .authenticating then c
  else { c with
    pendingProfile := none
    didAuthenticate := false
    remoteStatus := .idle
    loadingRemote := false
    remoteError := none }

def isCurrentRemoteRequest (token : Nat) : Bool :=
  token = c.remoteLoadToken ∧ c.remoteSessionId.isSome

def isCurrentRemoteSearch (token : Nat) : Bool :=
  token = c.remoteSearchToken ∧ c.remoteSessionId.isSome

def startLoading : SftpWorkspaceController :=
  { (({ c with
      remoteLoadToken := c.remoteLoadToken + 1
      remoteSearchToken := c.remoteSearchToken + 1 } : SftpWorkspaceController).clearRemoteSearchState) with
    loadingRemote := true
    remoteStatus := .listing
    remoteError := none }

def loadFailed (message : String) : SftpWorkspaceController :=
  { c with loadingRemote := false, remoteStatus := .failed, remoteError := some message }

def loaded (platform : Platform) (path : String)
    (entries : List RemoteFileEntry) : SftpWorkspaceController :=
  { c with
    remotePath := path
    remoteRows := mapRemoteRows platform path entries
    loadingRemote := false
    remoteStatus := .connected
    remoteError := none
    remoteConsecutiveFailures := 0
    showConnectionSteps := false }

def refreshed (platform : Platform) (path : String)
    (entries : List RemoteFileEntry) : SftpWorkspaceController :=
  { c with
    remoteRows := mapRemoteRows platform path entries
    remoteError := none
    remoteConsecutiveFailures := 0 }

def requestFailed (navigation : Bool) (message : String) :
    SftpWorkspaceController :=
  if navigation then c.loadFailed message else { c with remoteError := some message }

def requestDone (platform : Platform) (navigation : Bool) (path : String)
    (entries : List RemoteFileEntry) : SftpWorkspaceController :=
  if navigation then c.loaded platform path entries else c.refreshed platform path entries

def remoteFailThreshold : Nat := 2

def recordRemoteFailure : SftpWorkspaceController :=
  if remoteFailThreshold ≤ c.remoteConsecutiveFailures + 1 then
    { c.connectionLost with remoteConsecutiveFailures := 0 }
  else { c with remoteConsecutiveFailures := c.remoteConsecutiveFailures + 1 }

def closesAfterFailure : Bool :=
  remoteFailThreshold ≤ c.remoteConsecutiveFailures + 1

def handleSftpChanged (session : Option SftpSession) :
    SftpWorkspaceController :=
  if c.remoteSessionId = none then c
  else if session.any SftpSession.isConnected then { c with remoteDisconnectNotified := false }
  else if c.remoteDisconnectNotified then c
  else { c with
    remoteError := some (c.remoteError.getD
      (if session = none then "SFTP session lost. Connection was closed." else "Remote connection lost."))
    remoteStatus := .disconnected
    remoteDisconnectNotified := true }

def dispose : SftpWorkspaceController :=
  { c with isDisposed := true, remoteSearchDebounce := none, remoteSessionId := none }

def parseRemoteSearch (rawQuery : String) : RemoteSearchInput :=
  let trimmed := (dartTrim rawQuery).toList
  let splitIndex := trimmed.idxOf ':'
  if splitIndex < trimmed.length ∧ 0 < splitIndex ∧ trimmed.head? = some '/' then
    let base := dartTrim (String.ofList (trimmed.take splitIndex))
    ⟨if base = "" then "/" else base, dartTrim (String.ofList (trimmed.drop (splitIndex + 1)))⟩
  else ⟨c.remotePath, String.ofList trimmed⟩

def clearRemoteSearch : SftpWorkspaceController :=
  if dartTrim c.search.query = "" ∧ c.search.searching = false ∧ c.search.error = none then
    { c with remoteSearchDebounce := none }
  else
    ({ c with
      remoteSearchDebounce := none
      remoteSearchToken := c.remoteSearchToken + 1 } : SftpWorkspaceController).clearRemoteSearchState

def searchRemote (rawQuery : String) : SftpWorkspaceController :=
  match c.remoteSessionId with
  | none => { c with remoteSearchDebounce := none }
  | some sessionId =>
    if (c.parseRemoteSearch rawQuery).query = "" then c.clearRemoteSearch
    else { c with
      search := { c.search with
        query := (c.parseRemoteSearch rawQuery).query
        base := (c.parseRemoteSearch rawQuery).base
        searching := true }
      remoteSearchDebounce := some (sessionId, c.parseRemoteSearch rawQuery) }

def startSearch : SftpWorkspaceController :=
  { c with
    remoteSearchDebounce := none
    remoteSearchToken := c.remoteSearchToken + 1
    search := { c.search with rows := [], error := none, searching := true } }

def searchUnresolved (message : String) : SftpWorkspaceController :=
  { c with search := { c.search with error := some message, searching := false } }

def searchFailed (message : String) : SftpWorkspaceController :=
  { c with search := { c.search with error := some message, rows := [], searching := false } }

def maxRemoteSearchResults : Nat := 120

def searchDone (platform : Platform) (base : String)
    (entries : List RemoteFileEntry) : SftpWorkspaceController :=
  { c with search := { c.search with
      base := base
      rows := entries.map (mapSearchResult platform)
      error := if maxRemoteSearchResults ≤ entries.length then
        some s!"Showing first {maxRemoteSearchResults} matches." else none
      searching := false } }

end SftpWorkspaceController

/-- Where a call of `attachRemoteProfile` is, or of a method that ends with one. -/
inductive AttachPhase where
  | clearing
  | saving (password : String)
  | checking
  | connecting
  | resolvingFailure (failure : String)
  | loading (undo : Bool)
  | over

/-- A connection that is being made for the pane. -/
structure Attach where
  profile : Profiles.SshProfile
  path : String
  submitting : Bool := false
  phase : AttachPhase := .over

namespace Attach

def normalizedPath (call : Attach) : String :=
  if dartTrim call.path = "" then "~" else dartTrim call.path

def needsPassword (call : Attach) : Bool :=
  call.profile.authMethod = .password ∧
    (dartTrim call.profile.credentialLabel = "" ∨ call.profile.credentialLabel = "Saved password")

end Attach

inductive RequestPhase where
  | resolving (path : String)
  | listing (path : String)
  | over (result : Option (String × List RemoteFileEntry))

/-- A listing that was asked for. -/
structure RemoteRequest where
  navigation : Bool
  sessionId : String
  token : Nat
  caller : Option Nat := none
  phase : RequestPhase

inductive SearchPhase where
  | resolving
  | finding (base : String)
  | over

structure SearchRequest where
  sessionId : String
  input : RemoteSearchInput
  token : Nat
  phase : SearchPhase

inductive PaneObs where
  | opened (id profileId : String)
  | closed (id : String)
  deriving DecidableEq

/-- The controller with its connections, listings and searches under way. -/
structure SftpPane where
  controller : SftpWorkspaceController := {}
  resolvesFailures : Bool := true
  sessions : List SftpSession := []
  attaches : List Attach := []
  requests : List RemoteRequest := []
  searches : List SearchRequest := []
  used : List String := []
  wanted : Option String := none

/-- The calls of the user, the timer, and the answers. -/
inductive PaneEvent where
  | attachRemoteProfile (profile : Option Profiles.SshProfile) (initialPath : String)
  | clearRemoteSession
  | reconnect (profile : Profiles.SshProfile)
  | submitPassword (password : String)
  | cancelPasswordRequest
  | beginLoading
  | loadRemoteDirectory (path : String)
  | refresh
  | searchRemote (rawQuery : String)
  | clearRemoteSearch
  | clearDisconnectionNotification
  | dispose
  | cleared (call : Nat)
  | saved (call : Nat) (success : Bool)
  | checked (call : Nat) (hasSaved : Option Bool)
  | connected (call : Nat) (result : Except String String)
  | retried (call : Nat) (retry : Option Bool)
  | resolved (request : Nat) (path : Option String)
  | listed (request : Nat) (entries : Option (List RemoteFileEntry))
  | searchTimer
  | searchResolved (search : Nat) (path : Option String)
  | found (search : Nat) (entries : Option (List RemoteFileEntry))
  | dropped (id : String)
  | sftpChanged

namespace SftpPane

variable (platform : Platform)

def initial (resolvesFailures : Bool) : SftpPane := { resolvesFailures := resolvesFailures }

variable (s : SftpPane)

def session (id : String) : Option SftpSession :=
  s.sessions.find? fun session => session.id = id

/-- `SftpManager.close`. That the manager notifies the controller too makes no difference: its session
is not attached any more, or its loss is shown already. -/
def close (id : String) : SftpPane :=
  { s with sessions := s.sessions.filter fun session => session.id ≠ id }

def attached : Option SftpSession := s.controller.remoteSessionId.bind s.session

def isRemoteConnected : Bool := s.attached.any SftpSession.isConnected

def notify : SftpPane :=
  if s.controller.isDisposed then s
  else { s with controller := s.controller.handleSftpChanged s.attached }

def closeAttached : List PaneObs :=
  (s.controller.remoteSessionId.map PaneObs.closed).toList

def clearRemoteSession : SftpPane × List PaneObs :=
  ({ s with
      controller := s.controller.clearRemoteSession
      sessions := s.sessions.filter fun session => s.controller.remoteSessionId ≠ some session.id
      wanted := none }, s.closeAttached)

def dispose : SftpPane × List PaneObs :=
  ({ s with
      controller := s.controller.dispose
      sessions := s.sessions.filter fun session => s.controller.remoteSessionId ≠ some session.id
      wanted := none }, s.closeAttached)

variable (k : Nat) (call : Attach)

def setAttach : SftpPane :=
  { s with attaches := s.attaches.set k call }

def finish : SftpPane :=
  { s with
    attaches := s.attaches.set k { call with phase := .over }
    controller := { s.controller with
      passwordSubmitting := if call.submitting then false else s.controller.passwordSubmitting } }

def targetPath (path : String) : String :=
  if dartTrim path = "" then s.controller.remotePath else dartTrim path

def load (sessionId path : String) (caller : Option Nat) : SftpPane :=
  { s with
    controller := s.controller.startLoading
    requests := s.requests ++
      [⟨true, sessionId, s.controller.remoteLoadToken + 1, caller, .resolving (s.targetPath path)⟩] }

def proceed : SftpPane :=
  if s.controller.connectInProgress ∨ s.controller.remoteStatus = .listing then s.finish k call
  else { s.setAttach k { call with phase := .connecting } with
    controller := s.controller.startConnect call.normalizedPath }

/-- A call of `attachRemoteProfile` leaves it to `submitPassword` to connect. -/
def askPassword : SftpPane :=
  { s with controller := s.controller.askPassword call.profile call.normalizedPath }.finish k call

def reattach (sessionId : String) : SftpPane :=
  if s.isRemoteConnected ∧ s.controller.remoteError = none then
    if s.controller.remoteRows.isEmpty ∧ s.controller.loadingRemote = false then
      (s.setAttach k { call with phase := .loading true }).load sessionId s.controller.remotePath (some k)
    else if s.controller.remotePath ≠ call.normalizedPath ∧ s.controller.remoteRows.isEmpty then
      (s.setAttach k { call with phase := .loading true }).load sessionId call.normalizedPath (some k)
    else { s with controller := s.controller.undoBeginLoading }.finish k call
  else { s with controller := s.controller.connectionLost }.finish k call

def attachOther : SftpPane :=
  if call.needsPassword then
    if s.controller.passwordSubmitting then s.finish k call
    else s.setAttach k { call with phase := .checking }
  else s.proceed k call

def showSteps : SftpPane :=
  { s with controller := { s.controller with showConnectionSteps := true } }

def attach : SftpPane :=
  match s.controller.remoteSessionId with
  | some sessionId =>
    if s.controller.remoteProfileId = some call.profile.id then s.showSteps.reattach k call sessionId
    else s.showSteps.attachOther k call
  | none => s.showSteps.attachOther k call

def newAttach : SftpPane :=
  { s with attaches := s.attaches ++ [call] }

def connectFailed (failure : String) : SftpPane :=
  { s with controller := s.controller.connectFailed platform call.profile failure }.finish k call

def setConnectInProgress (connectInProgress : Bool) : SftpPane :=
  { s with controller := { s.controller with connectInProgress := connectInProgress } }

def refused (failure : String) : SftpPane :=
  if s.resolvesFailures ∧ s.controller.isDisposed = false then
    (s.setConnectInProgress true).setAttach k { call with phase := .resolvingFailure failure }
  else (s.setConnectInProgress false).connectFailed platform k call failure

def setSession (id : String) (profile : Profiles.SshProfile) : SftpPane :=
  { s with controller := { s.controller with
      remoteSessionId := some id
      remoteProfileId := some profile.id
      remoteProfileName := some profile.name } }

def openSession (id profileId : String) : SftpPane :=
  ({ s with sessions := s.sessions ++ [⟨id, profileId, true⟩], used := s.used ++ [id] } : SftpPane).notify

def accepted (id : String) : SftpPane × List PaneObs :=
  if s.controller.isDisposed then
    (((s.openSession id call.profile.id).setConnectInProgress false).close id |>.finish k call,
      [.opened id call.profile.id, .closed id])
  else
    (((((s.openSession id call.profile.id).setConnectInProgress false).setSession id call.profile).setAttach
        k { call with phase := .loading false }).load id s.controller.remotePath (some k),
      [.opened id call.profile.id])

def resume : Option Nat → SftpPane
  | none => s
  | some k => match s.attaches[k]? with
    | none => s
    | some call => match call.phase with
      | .loading true => { s with controller := s.controller.undoBeginLoading }.finish k call
      | .loading false => s.finish k call
      | _ => s

def setRequest (r : Nat) (request : RemoteRequest) : SftpPane :=
  { s with requests := s.requests.set r request }

def recordRemoteFailure (sessionId : String) : SftpPane × List PaneObs :=
  if s.controller.remoteSessionId ≠ some sessionId then (s, [])
  else if s.controller.closesAfterFailure then
    ({ s with controller := s.controller.recordRemoteFailure }.close sessionId, [.closed sessionId])
  else ({ s with controller := s.controller.recordRemoteFailure }, [])

def requestFailed (request : RemoteRequest) (message : String) :
    SftpPane × List PaneObs :=
  if s.controller.isCurrentRemoteRequest request.token then
    ({ s with controller := s.controller.requestFailed request.navigation message } :
      SftpPane).recordRemoteFailure request.sessionId
  else (s, [])

def endRequest (r : SftpPane × List PaneObs) (k : Nat) (request : RemoteRequest)
    (result : Option (String × List RemoteFileEntry)) : SftpPane × List PaneObs :=
  ((r.1.setRequest k { request with phase := .over result }).resume request.caller, r.2)

def requestDone (request : RemoteRequest) (path : String)
    (entries : List RemoteFileEntry) : SftpPane :=
  if s.controller.isCurrentRemoteRequest request.token then
    { s with controller := s.controller.requestDone platform request.navigation path entries }
  else s

def setSearch (i : Nat) (search : SearchRequest) (controller : SftpWorkspaceController) :
    SftpPane :=
  { s with
    searches := s.searches.set i search
    controller := if s.controller.isCurrentRemoteSearch search.token then controller else s.controller }

def passwordSaved (password : String) : SftpPane :=
  s.attach k { call with
    profile := { call.profile with credentialLabel := password }
    path := s.controller.remotePath }

def sessionCleared : SftpPane :=
  { s with controller := s.controller.beginLoading }.attach k call

def retry : SftpPane :=
  (s.setConnectInProgress false).attach k { call with path := call.normalizedPath }

def refresh (sessionId : String) : SftpPane :=
  { s with
    controller := { s.controller with remoteLoadToken := s.controller.remoteLoadToken + 1 }
    requests := s.requests ++
      [⟨false, sessionId, s.controller.remoteLoadToken + 1, none, .listing s.controller.remotePath⟩] }

/-- A profile is asked for by a call from outside: nothing that a call goes on with later changes it. -/
def want (profile : Profiles.SshProfile) : SftpPane := { s with wanted := some profile.id }

/-- One step of the pane or of what it waits for. -/
def step : PaneEvent → Option (SftpPane × List PaneObs)
  | .attachRemoteProfile profile initialPath => match profile with
    | none => some s.clearRemoteSession
    | some profile =>
      some (((s.want profile).newAttach { profile := profile, path := initialPath }).attach s.attaches.length
        { profile := profile, path := initialPath }, [])
  | .clearRemoteSession => some s.clearRemoteSession
  | .reconnect profile => some ((s.clearRemoteSession.1.want profile).newAttach
      { profile := profile, path := s.controller.remotePath, phase := .clearing }, s.closeAttached)
  | .submitPassword password => match s.controller.pendingProfile with
    | none => none
    | some profile => some ({ s.want profile with
        controller := { s.controller with pendingProfile := none, passwordSubmitting := true }
        attaches := s.attaches ++
          [{ profile := profile, path := "", submitting := true, phase := .saving password }] }, [])
  | .cancelPasswordRequest => some ({ s with controller := s.controller.cancelPasswordRequest }, [])
  | .beginLoading => some ({ s with controller := s.controller.beginLoading }, [])
  | .loadRemoteDirectory path => match s.controller.remoteSessionId with
    | none => none
    | some sessionId => some (s.load sessionId path none, [])
  | .refresh => match s.controller.remoteSessionId with
    | none => none
    | some sessionId => some (s.refresh sessionId, [])
  | .searchRemote rawQuery => some ({ s with controller := s.controller.searchRemote rawQuery }, [])
  | .clearRemoteSearch => some ({ s with controller := s.controller.clearRemoteSearch }, [])
  | .clearDisconnectionNotification =>
    some ({ s with controller := { s.controller with remoteDisconnectNotified := false } }, [])
  | .dispose => if s.controller.isDisposed then none else some s.dispose
  | .cleared k => match s.attaches[k]? with
    | none => none
    | some call => match call.phase with
      | .clearing => some (s.sessionCleared k call, [])
      | _ => none
  | .saved k success => match s.attaches[k]? with
    | none => none
    | some call => match call.phase with
      | .saving password =>
        some (if success then s.passwordSaved k call password else s.finish k call, [])
      | _ => none
  | .checked k hasSaved => match s.attaches[k]? with
    | none => none
    | some call => match call.phase with
      | .checking => match hasSaved with
        | none => some (s.finish k call, [])
        | some true => some (s.proceed k call, [])
        | some false => some (s.askPassword k call, [])
      | _ => none
  | .connected k result => match s.attaches[k]? with
    | none => none
    | some call => match call.phase with
      | .connecting => match result with
        | .error failure => some (s.refused platform k call failure, [])
        | .ok id => if id ∈ s.used then none else some (s.accepted k call id)
      | _ => none
  | .retried k retry => match s.attaches[k]? with
    | none => none
    | some call => match call.phase with
      | .resolvingFailure failure => match retry with
        | none => some (s.finish k call, [])
        | some true => some (s.retry k call, [])
        | some false => some ((s.setConnectInProgress false).connectFailed platform k call failure, [])
      | _ => none
  | .resolved r path => match s.requests[r]? with
    | none => none
    | some request => match request.phase with
      | .resolving _ => match path with
        | none =>
          some (endRequest (s.requestFailed request "Failed to resolve remote folder") r request none)
        | some path => some (s.setRequest r { request with phase := .listing path }, [])
      | _ => none
  | .listed r entries => match s.requests[r]? with
    | none => none
    | some request => match request.phase with
      | .listing path => match entries with
        | none => some (endRequest (s.requestFailed request "Failed to load remote folder") r request none)
        | some entries => some (endRequest (s.requestDone platform request path entries, []) r request
            (some (path, entries)))
      | _ => none
  | .searchTimer => match s.controller.remoteSearchDebounce with
    | none => none
    | some (sessionId, input) => some ({ s with
        controller := s.controller.startSearch
        searches := s.searches ++
          [⟨sessionId, input, s.controller.remoteSearchToken + 1, .resolving⟩] }, [])
  | .searchResolved i path => match s.searches[i]? with
    | none => none
    | some search => match search.phase with
      | .resolving => match path with
        | none => some (s.setSearch i { search with phase := .over }
            (s.controller.searchUnresolved "Failed to resolve remote folder"), [])
        | some path => some (s.setSearch i { search with phase := .finding path } s.controller, [])
      | _ => none
  | .found i entries => match s.searches[i]? with
    | none => none
    | some search => match search.phase with
      | .finding base => match entries with
        | none => some (s.setSearch i { search with phase := .over }
            (s.controller.searchFailed "Failed to find remote entries"), [])
        | some entries => some (s.setSearch i { search with phase := .over }
            (s.controller.searchDone platform base entries), [])
      | _ => none
  | .dropped id =>
    if (s.session id).any SftpSession.isConnected then
      some (({ s with sessions := s.sessions.map fun session =>
        if session.id = id then { session with isConnected := false } else session } : SftpPane).notify, [])
    else none
  | .sftpChanged => some (s.notify, [])

/-- Every session that was opened is closed, or it is the one attached, and of the profile that was last
asked for. -/
def OwnsOne (h : List PaneObs) (s : SftpPane) : Prop :=
  ∀ id profileId, .opened id profileId ∈ h →
    .closed id ∈ h ∨ (s.controller.remoteSessionId = some id ∧ s.wanted = some profileId)

/-- No other profile's session is open in the pane. -/
def Free (profileId : String) : Prop :=
  ∀ session ∈ s.sessions, s.controller.remoteSessionId = some session.id → session.profileId = profileId

/-- A profile is asked for only while no open session of another is attached, and a session that is opened
for a pane that is not disposed is of the profile that was last asked for, and finds no open session attached. -/
def Settled : PaneEvent → Prop
  | .attachRemoteProfile (some profile) _ => s.Free profile.id
  | .submitPassword _ => ∀ profile, s.controller.pendingProfile = some profile → s.Free profile.id
  | .connected k (.ok _) => ∀ call, s.attaches[k]? = some call → s.controller.isDisposed = false →
      s.wanted = some call.profile.id ∧
        ∀ session ∈ s.sessions, s.controller.remoteSessionId ≠ some session.id
  | _ => True

end SftpPane

end Portix.SftpWorkspace
