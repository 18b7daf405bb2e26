import Portix.SftpWorkspace.FindEntries
import Portix.SftpWorkspace.Proofs.SftpPaneProofs

/-!
# What is shown of a remote search

Most steps leave the search alone or clear it (`Apart`). While the current search is in flight, it is what is
shown, or nothing is, or a later one waits for the timer (`Searching`).
-/

namespace Portix.SftpWorkspace.SftpPane

open Lib

variable {platform : Platform} {s s' : SftpPane} {h : List PaneEvent} {event : PaneEvent} {k : Nat}
  {call : Attach} {id : String}

/-- A step that leaves the search alone, or clears it. -/
structure Apart (s s' : SftpPane) : Prop where
  searches : s'.searches = s.searches
  debounce : s'.controller.remoteSearchDebounce = s.controller.remoteSearchDebounce
  disposed : s'.controller.isDisposed = s.controller.isDisposed
  view : (s'.controller.search = s.controller.search ∧
      s'.controller.remoteSearchToken = s.controller.remoteSearchToken ∧
      s'.controller.remoteSessionId = s.controller.remoteSessionId) ∨
    (s'.controller.remoteSearchActive = false ∧
      s.controller.remoteSearchToken < s'.controller.remoteSearchToken)

theorem remoteSearchActive_congr {c c' : SftpWorkspaceController} (hsearch : c'.search = c.search) :
    c'.remoteSearchActive = c.remoteSearchActive := by
  unfold SftpWorkspaceController.remoteSearchActive
  rw [hsearch]

namespace Apart

theorem refl (s : SftpPane) : Apart s s := ⟨rfl, rfl, rfl, .inl ⟨rfl, rfl, rfl⟩⟩

theorem trans {s'' : SftpPane} (hfirst : Apart s s') (hsecond : Apart s' s'') : Apart s s'' := by
  refine ⟨hsecond.searches.trans hfirst.searches, hsecond.debounce.trans hfirst.debounce,
    hsecond.disposed.trans hfirst.disposed, ?_⟩
  rcases hfirst.view with ⟨hsearch, htoken, hsession⟩ | ⟨hcleared, htoken⟩
  · rcases hsecond.view with ⟨hsearch', htoken', hsession'⟩ | ⟨hcleared', htoken'⟩
    · exact .inl ⟨hsearch'.trans hsearch, htoken'.trans htoken, hsession'.trans hsession⟩
    · rw [htoken] at htoken'
      exact .inr ⟨hcleared', htoken'⟩
  · rcases hsecond.view with ⟨hsearch', htoken', -⟩ | ⟨hcleared', htoken'⟩
    · rw [← htoken'] at htoken
      exact .inr ⟨(remoteSearchActive_congr hsearch').trans hcleared, htoken⟩
    · exact .inr ⟨hcleared', htoken.trans htoken'⟩

theorem controller {c : SftpWorkspaceController} (hsearch : c.search = s.controller.search)
    (htoken : c.remoteSearchToken = s.controller.remoteSearchToken)
    (hsession : c.remoteSessionId = s.controller.remoteSessionId)
    (hdebounce : c.remoteSearchDebounce = s.controller.remoteSearchDebounce)
    (hdisposed : c.isDisposed = s.controller.isDisposed) : Apart s { s with controller := c } :=
  ⟨rfl, hdebounce, hdisposed, .inl ⟨hsearch, htoken, hsession⟩⟩

theorem finish (s : SftpPane) (k : Nat) (call : Attach) : Apart s (s.finish k call) :=
  ⟨rfl, rfl, rfl, .inl ⟨rfl, rfl, rfl⟩⟩

theorem setAttach (s : SftpPane) (k : Nat) (call : Attach) : Apart s (s.setAttach k call) :=
  ⟨rfl, rfl, rfl, .inl ⟨rfl, rfl, rfl⟩⟩

theorem newAttach (s : SftpPane) (call : Attach) : Apart s (s.newAttach call) :=
  ⟨rfl, rfl, rfl, .inl ⟨rfl, rfl, rfl⟩⟩

theorem showSteps (s : SftpPane) : Apart s s.showSteps := ⟨rfl, rfl, rfl, .inl ⟨rfl, rfl, rfl⟩⟩

theorem want (s : SftpPane) (profile : Profiles.SshProfile) : Apart s (s.want profile) :=
  ⟨rfl, rfl, rfl, .inl ⟨rfl, rfl, rfl⟩⟩

theorem setRequest (s : SftpPane) (r : Nat) (request : RemoteRequest) : Apart s (s.setRequest r request) :=
  ⟨rfl, rfl, rfl, .inl ⟨rfl, rfl, rfl⟩⟩

theorem setConnectInProgress (s : SftpPane) (connectInProgress : Bool) :
    Apart s (s.setConnectInProgress connectInProgress) := ⟨rfl, rfl, rfl, .inl ⟨rfl, rfl, rfl⟩⟩

theorem load (s : SftpPane) (sessionId path : String) (caller : Option Nat) :
    Apart s (s.load sessionId path caller) := by
  refine ⟨rfl, rfl, rfl, .inr ⟨?_, Nat.lt_succ_self _⟩⟩
  show decide (dartTrim "" ≠ "") = false
  decide

theorem clearRemoteSession (s : SftpPane) : Apart s s.clearRemoteSession.1 := by
  refine ⟨rfl, rfl, rfl, .inr ⟨?_, Nat.lt_succ_self _⟩⟩
  show decide (dartTrim "" ≠ "") = false
  decide

theorem beginLoading (s : SftpPane) : Apart s { s with controller := s.controller.beginLoading } := by
  unfold SftpWorkspaceController.beginLoading
  split
  · exact refl s
  · exact .controller rfl rfl rfl rfl rfl

theorem undoBeginLoading (s : SftpPane) : Apart s { s with controller := s.controller.undoBeginLoading } := by
  unfold SftpWorkspaceController.undoBeginLoading
  split
  · exact .controller rfl rfl rfl rfl rfl
  · exact refl s

theorem cancelPasswordRequest (s : SftpPane) : Apart s { s with controller := s.controller.cancelPasswordRequest } := by
  unfold SftpWorkspaceController.cancelPasswordRequest
  split
  · exact refl s
  · exact .controller rfl rfl rfl rfl rfl

theorem handleSftpChanged (s : SftpPane) (session : Option SftpSession) :
    Apart s { s with controller := s.controller.handleSftpChanged session } := by
  unfold SftpWorkspaceController.handleSftpChanged
  split
  · exact refl s
  · split
    · exact .controller rfl rfl rfl rfl rfl
    · split
      · exact refl s
      · exact .controller rfl rfl rfl rfl rfl

theorem notify (s : SftpPane) : Apart s s.notify := by
  unfold SftpPane.notify
  split
  · exact refl s
  · exact .handleSftpChanged s s.attached

theorem proceed (s : SftpPane) (k : Nat) (call : Attach) : Apart s (s.proceed k call) := by
  have hstart : ∀ path, Apart s { s with controller := s.controller.startConnect path } :=
    fun _ => .controller rfl rfl rfl rfl rfl
  unfold SftpPane.proceed
  split
  · exact .finish s k call
  · exact (hstart call.normalizedPath).trans (.setAttach _ k { call with phase := .connecting })

theorem askPassword (s : SftpPane) (k : Nat) (call : Attach) : Apart s (s.askPassword k call) := by
  have hask : ∀ path, Apart s { s with controller := s.controller.askPassword call.profile path } :=
    fun _ => .controller rfl rfl rfl rfl rfl
  exact (hask call.normalizedPath).trans (.finish _ k call)

theorem reattach (s : SftpPane) (k : Nat) (call : Attach) (sessionId : String) :
    Apart s (s.reattach k call sessionId) := by
  unfold SftpPane.reattach
  split
  · split
    · exact (Apart.setAttach s _ _).trans (.load _ _ _ _)
    · split
      · exact (Apart.setAttach s _ _).trans (.load _ _ _ _)
      · exact (Apart.undoBeginLoading s).trans (.finish _ _ _)
  · exact ⟨rfl, rfl, rfl, .inl ⟨rfl, rfl, rfl⟩⟩

theorem attachOther (s : SftpPane) (k : Nat) (call : Attach) : Apart s (s.attachOther k call) := by
  unfold SftpPane.attachOther
  split
  · split
    · exact .finish s k call
    · exact .setAttach s k _
  · exact .proceed s k call

theorem attach (s : SftpPane) (k : Nat) (call : Attach) : Apart s (s.attach k call) := by
  have hsteps := Apart.showSteps s
  unfold SftpPane.attach
  split
  · split
    · exact hsteps.trans (.reattach _ k call _)
    · exact hsteps.trans (.attachOther _ k call)
  · exact hsteps.trans (.attachOther _ k call)

theorem connectFailed (s : SftpPane) (k : Nat) (call : Attach) (failure : String) :
    Apart s (s.connectFailed platform k call failure) := by
  have hcontroller : Apart s { s with controller := s.controller.connectFailed platform call.profile failure } := by
    unfold SftpWorkspaceController.connectFailed
    split
    · exact .controller rfl rfl rfl rfl rfl
    · exact .controller rfl rfl rfl rfl rfl
  exact hcontroller.trans (.finish _ k call)

theorem refused (s : SftpPane) (k : Nat) (call : Attach) (failure : String) :
    Apart s (s.refused platform k call failure) := by
  unfold SftpPane.refused
  split
  · exact (Apart.setConnectInProgress s true).trans (.setAttach _ k _)
  · exact (Apart.setConnectInProgress s false).trans (.connectFailed _ k call failure)

theorem openSession (s : SftpPane) (id profileId : String) : Apart s (s.openSession id profileId) := by
  have hopened : Apart s { s with sessions := s.sessions ++ [⟨id, profileId, true⟩], used := s.used ++ [id] } :=
    ⟨rfl, rfl, rfl, .inl ⟨rfl, rfl, rfl⟩⟩
  exact hopened.trans (.notify _)

theorem setSession_load (s : SftpPane) (id path : String) (profile : Profiles.SshProfile) (k : Nat) (call : Attach)
    (caller : Option Nat) : Apart s (((s.setSession id profile).setAttach k call).load id path caller) := by
  refine ⟨rfl, rfl, rfl, .inr ⟨?_, Nat.lt_succ_self _⟩⟩
  show decide (dartTrim "" ≠ "") = false
  decide

theorem accepted (s : SftpPane) (k : Nat) (call : Attach) (id : String) : Apart s (s.accepted k call id).1 := by
  have hopened := (Apart.openSession s id call.profile.id).trans (.setConnectInProgress _ false)
  unfold SftpPane.accepted
  split
  · have hclosed : Apart _ (((s.openSession id call.profile.id).setConnectInProgress false).close id) :=
      hopened.trans ⟨rfl, rfl, rfl, .inl ⟨rfl, rfl, rfl⟩⟩
    exact hclosed.trans (.finish _ k call)
  · exact hopened.trans (.setSession_load _ id _ call.profile k _ (some k))

theorem resume (s : SftpPane) (caller : Option Nat) : Apart s (s.resume caller) := by
  unfold SftpPane.resume
  split
  · exact refl s
  · split
    · exact refl s
    · split
      · exact (Apart.undoBeginLoading s).trans (.finish _ _ _)
      · exact .finish s _ _
      · exact refl s

theorem recordRemoteFailure (s : SftpPane) (sessionId : String) : Apart s (s.recordRemoteFailure sessionId).1 := by
  have hcontroller : Apart s { s with controller := s.controller.recordRemoteFailure } := by
    unfold SftpWorkspaceController.recordRemoteFailure
    split
    · exact .controller rfl rfl rfl rfl rfl
    · exact .controller rfl rfl rfl rfl rfl
  unfold SftpPane.recordRemoteFailure
  split
  · exact refl s
  · split
    · exact hcontroller.trans ⟨rfl, rfl, rfl, .inl ⟨rfl, rfl, rfl⟩⟩
    · exact hcontroller

theorem requestFailed (s : SftpPane) (request : RemoteRequest) (message : String) :
    Apart s (s.requestFailed request message).1 := by
  have hcontroller : Apart s { s with controller := s.controller.requestFailed request.navigation message } := by
    unfold SftpWorkspaceController.requestFailed
    split
    · exact .controller rfl rfl rfl rfl rfl
    · exact .controller rfl rfl rfl rfl rfl
  unfold SftpPane.requestFailed
  split
  · exact hcontroller.trans (.recordRemoteFailure _ request.sessionId)
  · exact refl s

theorem requestDone (s : SftpPane) (request : RemoteRequest) (path : String) (entries : List RemoteFileEntry) :
    Apart s (s.requestDone platform request path entries) := by
  unfold SftpPane.requestDone SftpWorkspaceController.requestDone
  split
  · split
    · exact .controller rfl rfl rfl rfl rfl
    · exact .controller rfl rfl rfl rfl rfl
  · exact refl s

theorem endRequest {r : SftpPane × List PaneObs} (happart : Apart s r.1) (request : RemoteRequest)
    (result : Option (String × List RemoteFileEntry)) : Apart s (endRequest r k request result).1 :=
  (happart.trans (.setRequest _ k _)).trans (.resume _ request.caller)

end Apart

theorem Outcome.append {i : Nat} {input : RemoteSearchInput} {shown : RemoteSearch}
    (houtcome : Outcome platform h i input shown) : Outcome platform (h ++ [event]) i input shown := by
  cases houtcome with
  | unresolved hresolved => exact .unresolved (List.mem_append_left _ hresolved)
  | notFound hresolved hfound =>
    exact .notFound (List.mem_append_left _ hresolved) (List.mem_append_left _ hfound)
  | found hresolved hfound => exact .found (List.mem_append_left _ hresolved) (List.mem_append_left _ hfound)

/-- The searches have tokens of their own, and while the current one is in flight it is the one that is shown, unless
a later one waits for the timer. -/
structure Searching (platform : Platform) (h : List PaneEvent) (s : SftpPane) : Prop where
  le : ∀ (i : Nat) (search : SearchRequest), s.searches[i]? = some search →
    search.token ≤ s.controller.remoteSearchToken
  distinct : ∀ (i j : Nat) (search search' : SearchRequest),
    s.searches[i]? = some search → s.searches[j]? = some search' →
    search.token = search'.token → i = j
  resolved : ∀ (i : Nat) (search : SearchRequest) (path : String),
    s.searches[i]? = some search → search.phase = .finding path →
    .searchResolved i (some path) ∈ h
  away : s.controller.remoteSessionId = none → s.controller.isDisposed = false →
    s.controller.remoteSearchActive = false
  pending : ∀ (sessionId : String) (input : RemoteSearchInput),
    s.controller.remoteSearchDebounce = some (sessionId, input) →
    s.controller.remoteSearchActive = true →
    s.controller.search.query = input.query ∧ s.controller.remoteSessionId = some sessionId
  current : ∀ (i : Nat) (search : SearchRequest), s.searches[i]? = some search → search.phase ≠ .over →
    s.controller.isCurrentRemoteSearch search.token = true → s.controller.search.rows = [] ∧
      (s.controller.remoteSearchDebounce = none → s.controller.remoteSearchActive = true →
        s.controller.search.query = search.input.query ∧
          s.controller.remoteSessionId = some search.sessionId)
  shown : s.ShowsSearch platform h

theorem isCurrentRemoteSearch_iff {token : Nat} : s.controller.isCurrentRemoteSearch token = true ↔
    token = s.controller.remoteSearchToken ∧ s.controller.remoteSessionId.isSome = true := by
  unfold SftpWorkspaceController.isCurrentRemoteSearch
  rw [decide_eq_true_iff]

theorem not_current_of_lt {search : SearchRequest} {i : Nat}
    (hle : ∀ (i : Nat) (search : SearchRequest), s.searches[i]? = some search →
      search.token ≤ s.controller.remoteSearchToken)
    (hlt : s.controller.remoteSearchToken < s'.controller.remoteSearchToken)
    (hat : s.searches[i]? = some search) : ¬ s'.controller.isCurrentRemoteSearch search.token = true := by
  rw [isCurrentRemoteSearch_iff]
  rintro ⟨htoken, -⟩
  have hold := hle i search hat
  omega

theorem Searching.cleared (hinv : Searching platform h s) (hsearches : s'.searches = s.searches)
    (hcleared : s'.controller.remoteSearchActive = false)
    (htoken : s.controller.remoteSearchToken < s'.controller.remoteSearchToken) :
    Searching platform (h ++ [event]) s' := by
  refine ⟨?_, ?_, ?_, fun _ _ => hcleared, ?_, ?_, ?_⟩
  · intro i search hat
    rw [hsearches] at hat
    exact (hinv.le i search hat).trans htoken.le
  · rw [hsearches]
    exact hinv.distinct
  · intro i search path hat hphase
    rw [hsearches] at hat
    exact List.mem_append_left _ (hinv.resolved i search path hat hphase)
  · intro sessionId input _ hactive
    rw [hcleared] at hactive
    cases hactive
  · intro i search hat _ hcurrent
    rw [hsearches] at hat
    exact absurd hcurrent (not_current_of_lt hinv.le htoken hat)
  · intro _ hactive
    rw [hcleared] at hactive
    cases hactive

theorem Searching.apart (hinv : Searching platform h s) (happart : Apart s s') :
    Searching platform (h ++ [event]) s' := by
  rcases happart.view with ⟨hsearch, htoken, hsession⟩ | ⟨hcleared, htoken⟩
  · have hactive := remoteSearchActive_congr hsearch
    refine ⟨?_, ?_, ?_, ?_, ?_, ?_, ?_⟩
    · rw [happart.searches, htoken]
      exact hinv.le
    · rw [happart.searches]
      exact hinv.distinct
    · intro i search path hat hphase
      rw [happart.searches] at hat
      exact List.mem_append_left _ (hinv.resolved i search path hat hphase)
    · rw [hsession, happart.disposed, hactive]
      exact hinv.away
    · rw [happart.debounce, hactive, hsearch, hsession]
      exact hinv.pending
    · intro i search hat hphase hcurrent
      rw [happart.searches] at hat
      rw [isCurrentRemoteSearch_iff, htoken, hsession, ← isCurrentRemoteSearch_iff] at hcurrent
      rw [happart.debounce, hactive, hsearch, hsession]
      exact hinv.current i search hat hphase hcurrent
    · intro hdisposed hshown hdone
      rw [happart.disposed] at hdisposed
      rw [hactive] at hshown
      rw [hsearch] at hdone
      obtain ⟨i, search, hat, hattached, houtcome⟩ := hinv.shown hdisposed hshown hdone
      rw [happart.searches, hsession, hsearch]
      exact ⟨i, search, hat, hattached, houtcome.append⟩
  · exact hinv.cleared happart.searches hcleared htoken

theorem Searching.dispose (hinv : Searching platform h s) : Searching platform (h ++ [event]) s.dispose.1 := by
  refine ⟨hinv.le, hinv.distinct, ?_, ?_, ?_, ?_, ?_⟩
  · intro i search path hat hphase
    exact List.mem_append_left _ (hinv.resolved i search path hat hphase)
  · rintro _ ⟨⟩
  · rintro sessionId input ⟨⟩
  · intro i search _ _ hcurrent
    rw [isCurrentRemoteSearch_iff] at hcurrent
    cases hcurrent.2
  · rintro ⟨⟩

theorem Searching.stopTimer (hinv : Searching platform h s)
    (hidle : s.controller.remoteSearchActive = true → s.controller.remoteSessionId = none) :
    Searching platform (h ++ [event]) { s with controller := { s.controller with remoteSearchDebounce := none } } := by
  refine ⟨hinv.le, hinv.distinct, ?_, hinv.away, ?_, ?_, ?_⟩
  · intro i search path hat hphase
    exact List.mem_append_left _ (hinv.resolved i search path hat hphase)
  · rintro sessionId input ⟨⟩
  · intro i search hat hphase hcurrent
    refine ⟨(hinv.current i search hat hphase hcurrent).1, fun _ hactive => ?_⟩
    have hattached := (isCurrentRemoteSearch_iff.mp hcurrent).2
    have hnone : s.controller.remoteSessionId.isSome = false := by
      rw [hidle hactive]
      rfl
    exact absurd (hattached.symm.trans hnone) (by decide)
  · intro hdisposed hactive hdone
    obtain ⟨i, search, hat, hattached, houtcome⟩ := hinv.shown hdisposed hactive hdone
    exact ⟨i, search, hat, hattached, houtcome.append⟩

theorem Searching.clearRemoteSearch (hinv : Searching platform h s) :
    Searching platform (h ++ [event]) { s with controller := s.controller.clearRemoteSearch } := by
  unfold SftpWorkspaceController.clearRemoteSearch
  split
  case isTrue hidle =>
    refine hinv.stopTimer fun hactive => ?_
    exact absurd hidle.1 (of_decide_eq_true hactive)
  case isFalse =>
    refine hinv.cleared rfl ?_ (Nat.lt_succ_self _)
    show decide (dartTrim "" ≠ "") = false
    decide

theorem Searching.searchRemote (hinv : Searching platform h s) (rawQuery : String) :
    Searching platform (h ++ [event]) { s with controller := s.controller.searchRemote rawQuery } := by
  unfold SftpWorkspaceController.searchRemote
  split
  case h_1 hnone => exact hinv.stopTimer fun _ => hnone
  case h_2 sessionId hsession =>
    split
    case isTrue => exact hinv.clearRemoteSearch
    case isFalse =>
      generalize s.controller.parseRemoteSearch rawQuery = parsed
      refine ⟨hinv.le, hinv.distinct, ?_, ?_, ?_, ?_, ?_⟩
      · intro i search path hat hphase
        exact List.mem_append_left _ (hinv.resolved i search path hat hphase)
      · intro hnone
        cases hsession.symm.trans hnone
      · intro sessionId' input hdebounce _
        cases hdebounce
        exact ⟨rfl, hsession⟩
      · intro i search hat hphase hcurrent
        refine ⟨(hinv.current i search hat hphase hcurrent).1, fun hdebounce => ?_⟩
        cases hdebounce
      · rintro _ _ ⟨⟩

theorem Searching.startSearch (hinv : Searching platform h s) {sessionId : String} {input : RemoteSearchInput}
    (hdebounce : s.controller.remoteSearchDebounce = some (sessionId, input)) :
    Searching platform (h ++ [event]) { s with
      controller := s.controller.startSearch
      searches := s.searches ++ [⟨sessionId, input, s.controller.remoteSearchToken + 1, .resolving⟩] } := by
  refine ⟨?_, ?_, ?_, hinv.away, ?_, ?_, ?_⟩
  · intro i search hat
    rcases getElem?_concat_eq_some.mp hat with hold | ⟨-, rfl⟩
    · exact Nat.le_succ_of_le (hinv.le i search hold)
    · exact le_rfl
  · intro i j search search' hat hat' hsame
    rcases getElem?_concat_eq_some.mp hat with hold | ⟨rfl, rfl⟩
    · rcases getElem?_concat_eq_some.mp hat' with hold' | ⟨-, rfl⟩
      · exact hinv.distinct i j search search' hold hold' hsame
      · have hle := hinv.le i search hold
        simp only at hsame
        omega
    · rcases getElem?_concat_eq_some.mp hat' with hold' | ⟨rfl, rfl⟩
      · have hle := hinv.le j search' hold'
        simp only at hsame
        omega
      · rfl
  · intro i search path hat hphase
    rcases getElem?_concat_eq_some.mp hat with hold | ⟨-, rfl⟩
    · exact List.mem_append_left _ (hinv.resolved i search path hold hphase)
    · cases hphase
  · rintro sessionId' input' ⟨⟩
  · intro i search hat hphase hcurrent
    refine ⟨rfl, fun _ hactive => ?_⟩
    rcases getElem?_concat_eq_some.mp hat with hold | ⟨-, rfl⟩
    · have hle := hinv.le i search hold
      have htoken : search.token = s.controller.remoteSearchToken + 1 := (isCurrentRemoteSearch_iff.mp hcurrent).1
      omega
    · exact hinv.pending sessionId input hdebounce hactive
  · rintro _ _ ⟨⟩

section Answers

variable {i : Nat} {search : SearchRequest} {shown : RemoteSearch} {phase : SearchPhase}

theorem exists_of_set {j : Nat} {search' : SearchRequest} (hat : s.searches[i]? = some search)
    (hat' : (s.searches.set i { search with phase := phase })[j]? = some search') :
    ∃ old, s.searches[j]? = some old ∧ old.token = search'.token := by
  rcases (getElem?_set_eq_some hat).mp hat' with ⟨rfl, rfl⟩ | ⟨-, hold⟩
  · exact ⟨search, hat, rfl⟩
  · exact ⟨search', hold, rfl⟩

theorem Searching.le_set (hinv : Searching platform h s) (hat : s.searches[i]? = some search)
    (j : Nat) (search' : SearchRequest)
    (hat' : (s.searches.set i { search with phase := phase })[j]? = some search') :
    search'.token ≤ s.controller.remoteSearchToken := by
  obtain ⟨old, hold, htoken⟩ := exists_of_set hat hat'
  rw [← htoken]
  exact hinv.le j old hold

theorem Searching.distinct_set (hinv : Searching platform h s) (hat : s.searches[i]? = some search) (j k : Nat)
    (search' search'' : SearchRequest)
    (hat' : (s.searches.set i { search with phase := phase })[j]? = some search')
    (hat'' : (s.searches.set i { search with phase := phase })[k]? = some search'')
    (hsame : search'.token = search''.token) : j = k := by
  obtain ⟨old', hold', htoken'⟩ := exists_of_set hat hat'
  obtain ⟨old'', hold'', htoken''⟩ := exists_of_set hat hat''
  refine hinv.distinct j k old' old'' hold' hold'' ?_
  rw [htoken', htoken'', hsame]

theorem ShowsSearch.set (hshown : s.ShowsSearch platform h) (hat : s.searches[i]? = some search) :
    ShowsSearch platform (h ++ [event]) { s with searches := s.searches.set i { search with phase := phase } } := by
  intro hdisposed hactive hdone
  obtain ⟨j, search', hat', hattached, houtcome⟩ := hshown hdisposed hactive hdone
  by_cases hsame : j = i
  · subst hsame
    cases hat.symm.trans hat'
    exact ⟨j, { search with phase := phase }, (getElem?_set_eq_some hat).mpr (.inl ⟨rfl, rfl⟩), hattached,
      houtcome.append⟩
  · exact ⟨j, search', (getElem?_set_eq_some hat).mpr (.inr ⟨hsame, hat'⟩), hattached, houtcome.append⟩

theorem Searching.searchResolved (hinv : Searching platform h s) {path : String}
    (hat : s.searches[i]? = some search) (hphase : search.phase = .resolving) :
    Searching platform (h ++ [.searchResolved i (some path)])
      { s with searches := s.searches.set i { search with phase := .finding path } } := by
  refine ⟨hinv.le_set hat, hinv.distinct_set hat, ?_, hinv.away, hinv.pending, ?_, hinv.shown.set hat⟩
  · intro j search' path' hat' hphase'
    rcases (getElem?_set_eq_some hat).mp hat' with ⟨rfl, rfl⟩ | ⟨-, hold⟩
    · cases hphase'
      exact List.mem_concat_self
    · exact List.mem_append_left _ (hinv.resolved j search' path' hold hphase')
  · intro j search' hat' hphase' hcurrent
    rcases (getElem?_set_eq_some hat).mp hat' with ⟨rfl, rfl⟩ | ⟨-, hold⟩
    · exact hinv.current j search hat (by simp [hphase]) hcurrent
    · exact hinv.current j search' hold hphase' hcurrent

theorem Searching.answered (hinv : Searching platform h s) (hat : s.searches[i]? = some search)
    (hquery : shown.query = s.controller.search.query)
    (houtcome : s.controller.isCurrentRemoteSearch search.token = true → s.controller.remoteSearchActive = true →
      s.controller.remoteSessionId = some search.sessionId ∧ Outcome platform (h ++ [event]) i search.input shown) :
    Searching platform (h ++ [event])
      (s.setSearch i { search with phase := .over } { s.controller with search := shown }) := by
  have hresolved : ∀ (j : Nat) (search' : SearchRequest) (path : String),
      (s.searches.set i { search with phase := .over })[j]? = some search' → search'.phase = .finding path →
      .searchResolved j (some path) ∈ h ++ [event] := by
    intro j search' path hat' hphase
    rcases (getElem?_set_eq_some hat).mp hat' with ⟨-, rfl⟩ | ⟨-, hold⟩
    · cases hphase
    · exact List.mem_append_left _ (hinv.resolved j search' path hold hphase)
  unfold setSearch
  simp only
  split
  case isTrue hcurrent =>
    have hactive : ({ s.controller with search := shown } : SftpWorkspaceController).remoteSearchActive =
        s.controller.remoteSearchActive := by
      unfold SftpWorkspaceController.remoteSearchActive
      rw [hquery]
    refine ⟨hinv.le_set hat, hinv.distinct_set hat, hresolved, ?_, ?_, ?_, ?_⟩
    · intro hnone
      have hattached := (isCurrentRemoteSearch_iff.mp hcurrent).2
      rw [show s.controller.remoteSessionId = none from hnone] at hattached
      cases hattached
    · intro sessionId input hdebounce hshown
      rw [hactive] at hshown
      have hpending := hinv.pending sessionId input hdebounce hshown
      exact ⟨hquery.trans hpending.1, hpending.2⟩
    · intro j search' hat' hphase hcurrent'
      rcases (getElem?_set_eq_some hat).mp hat' with ⟨-, rfl⟩ | ⟨hne, hold⟩
      · exact absurd rfl hphase
      · have htoken := (isCurrentRemoteSearch_iff.mp hcurrent).1
        have htoken' : search'.token = s.controller.remoteSearchToken := (isCurrentRemoteSearch_iff.mp hcurrent').1
        exact absurd (hinv.distinct j i search' search hold hat (htoken'.trans htoken.symm)) hne
    · intro _ hshown _
      rw [hactive] at hshown
      obtain ⟨hattached, hout⟩ := houtcome hcurrent hshown
      exact ⟨i, _, (getElem?_set_eq_some hat).mpr (.inl ⟨rfl, rfl⟩), hattached, hout⟩
  case isFalse hcurrent =>
    refine ⟨hinv.le_set hat, hinv.distinct_set hat, hresolved, hinv.away, hinv.pending, ?_, hinv.shown.set hat⟩
    intro j search' hat' hphase hcurrent'
    rcases (getElem?_set_eq_some hat).mp hat' with ⟨-, rfl⟩ | ⟨-, hold⟩
    · exact absurd rfl hphase
    · exact hinv.current j search' hold hphase hcurrent'

theorem Searching.query_eq (hinv : Searching platform h s) (hat : s.searches[i]? = some search)
    (hphase : search.phase ≠ .over) (hcurrent : s.controller.isCurrentRemoteSearch search.token = true)
    (hactive : s.controller.remoteSearchActive = true) (hawaited : s.Awaited i) :
    s.controller.search.query = search.input.query ∧ s.controller.remoteSessionId = some search.sessionId := by
  cases hdebounce : s.controller.remoteSearchDebounce with
  | none => exact (hinv.current i search hat hphase hcurrent).2 hdebounce hactive
  | some waiting =>
    obtain ⟨sessionId, input⟩ := waiting
    obtain ⟨hquery, hattached⟩ := hinv.pending sessionId input hdebounce hactive
    obtain ⟨rfl, hsame⟩ := hawaited search hat hcurrent hactive sessionId input hdebounce
    exact ⟨hquery.trans hsame, hattached⟩

theorem Searching.failed (hinv : Searching platform h s) (hat : s.searches[i]? = some search)
    (hphase : search.phase ≠ .over) (hawaited : s.Awaited i) (hbase : s.BaseShown i) {message : String}
    (hfailed : Outcome platform (h ++ [event]) i search.input
      { query := search.input.query, base := search.input.base, error := some message }) :
    Searching platform (h ++ [event]) (s.setSearch i { search with phase := .over }
      (s.controller.searchUnresolved message)) ∧
    Searching platform (h ++ [event]) (s.setSearch i { search with phase := .over }
      (s.controller.searchFailed message)) := by
  constructor
  · refine hinv.answered hat rfl fun hcurrent hactive => ?_
    obtain ⟨hquery, hattached⟩ := hinv.query_eq hat hphase hcurrent hactive hawaited
    have hrows := (hinv.current i search hat hphase hcurrent).1
    have hbase := hbase search hat hcurrent hactive
    rw [← hquery, ← hbase, ← hrows] at hfailed
    exact ⟨hattached, hfailed⟩
  · refine hinv.answered hat rfl fun hcurrent hactive => ?_
    obtain ⟨hquery, hattached⟩ := hinv.query_eq hat hphase hcurrent hactive hawaited
    have hbase := hbase search hat hcurrent hactive
    rw [← hquery, ← hbase] at hfailed
    exact ⟨hattached, hfailed⟩

end Answers

theorem Searching.step (hinv : Searching platform h s) (hundisturbed : s.Undisturbed event) {o : List PaneObs}
    (htaken : Taken platform s event s' o) : Searching platform (h ++ [event]) s' := by
  cases htaken with
  | attach profile path => exact hinv.apart (((Apart.want s profile).trans (.newAttach _ _)).trans (.attach _ _ _))
  | clear hevent => exact hinv.apart (.clearRemoteSession s)
  | reconnect profile =>
    exact hinv.apart (((Apart.clearRemoteSession s).trans (.want _ profile)).trans (.newAttach _ _))
  | submitPassword hpending => exact hinv.apart ⟨rfl, rfl, rfl, .inl ⟨rfl, rfl, rfl⟩⟩
  | cancelPasswordRequest => exact hinv.apart (.cancelPasswordRequest s)
  | beginLoading => exact hinv.apart (.beginLoading s)
  | load hsession => exact hinv.apart (.load s _ _ _)
  | refresh hsession => exact hinv.apart ⟨rfl, rfl, rfl, .inl ⟨rfl, rfl, rfl⟩⟩
  | searchRemote rawQuery => exact hinv.searchRemote rawQuery
  | clearRemoteSearch => exact hinv.clearRemoteSearch
  | clearDisconnectionNotification => exact hinv.apart ⟨rfl, rfl, rfl, .inl ⟨rfl, rfl, rfl⟩⟩
  | dispose => exact hinv.dispose
  | cleared hat => exact hinv.apart ((Apart.beginLoading s).trans (.attach _ _ _))
  | saved hat => exact hinv.apart (.attach s _ _)
  | finished hat => exact hinv.apart (.finish s _ _)
  | proceed hat => exact hinv.apart (.proceed s _ _)
  | askPassword hat => exact hinv.apart (.askPassword s _ _)
  | refused hat => exact hinv.apart (.refused s _ _ _)
  | accepted hat hfresh => exact hinv.apart (.accepted s _ _ _)
  | retry hat => exact hinv.apart ((Apart.setConnectInProgress s false).trans (.attach _ _ _))
  | connectFailed hat => exact hinv.apart ((Apart.setConnectInProgress s false).trans (.connectFailed _ _ _ _))
  | unresolved hat hphase => exact hinv.apart (.endRequest (.requestFailed s _ _) _ _)
  | resolved hat hphase => exact hinv.apart (.setRequest s _ _)
  | unlisted hat hphase => exact hinv.apart (.endRequest (.requestFailed s _ _) _ _)
  | listed hat hphase => exact hinv.apart (Apart.endRequest (.requestDone s _ _ _) _ _)
  | searchTimer hdebounce => exact hinv.startSearch hdebounce
  | searchUnresolved hat hphase =>
    obtain ⟨hawaited, hbase⟩ := hundisturbed
    exact (hinv.failed hat (by simp [hphase]) hawaited hbase (.unresolved List.mem_concat_self)).1
  | searchResolved hat hphase =>
    unfold setSearch
    rw [ite_self]
    exact hinv.searchResolved hat hphase
  | @notFound i search base hat hphase =>
    obtain ⟨hawaited, hbase⟩ := hundisturbed
    have hresolved := List.mem_append_left [.found i none] (hinv.resolved i search base hat hphase)
    exact (hinv.failed hat (by simp [hphase]) hawaited hbase (.notFound hresolved List.mem_concat_self)).2
  | @found i search base entries hat hphase =>
    have hresolved := List.mem_append_left [.found i (some entries)] (hinv.resolved i search base hat hphase)
    refine hinv.answered hat rfl fun hcurrent hactive => ?_
    obtain ⟨hquery, hattached⟩ := hinv.query_eq hat (by simp [hphase]) hcurrent hactive hundisturbed
    have houtcome : Outcome platform _ i search.input _ := .found hresolved List.mem_concat_self
    rw [← hquery] at houtcome
    exact ⟨hattached, houtcome⟩
  | @dropped id =>
    have hdropped : Apart s { s with sessions := s.sessions.map fun session =>
        if session.id = id then { session with isConnected := false } else session } :=
      ⟨rfl, rfl, rfl, .inl ⟨rfl, rfl, rfl⟩⟩
    exact hinv.apart (hdropped.trans (.notify _))
  | sftpChanged => exact hinv.apart (.notify s)

/-- In every run whose answers come undisturbed, what is shown of a search is its outcome. -/
theorem shows_search {resolvesFailures : Bool}
    (hreach : Reaches (traced (step platform)) Undisturbed (initial resolvesFailures) h s) :
    s.ShowsSearch platform h := by
  have hinactive : (initial resolvesFailures).controller.remoteSearchActive = false := by
    show decide (dartTrim "" ≠ "") = false
    decide
  have hinv : Searching platform h s := by
    refine hreach.invariant (I := Searching platform) ?_ ?_
    · refine ⟨?_, ?_, ?_, fun _ _ => hinactive, ?_, ?_, ?_⟩
      · rintro i search ⟨⟩
      · rintro i j search search' ⟨⟩
      · rintro i search path ⟨⟩
      · rintro sessionId input ⟨⟩
      · rintro i search ⟨⟩
      · intro _ hactive
        rw [hinactive] at hactive
        cases hactive
    · intro h s event s' trace hinv hundisturbed hstep
      obtain ⟨⟨o, htaken⟩, rfl⟩ := traced_eq_some.mp hstep
      exact hinv.step hundisturbed (taken_of_step htaken)
  exact hinv.shown

/-- The query is changed while its search is running: the first search is answered when the second has begun. -/
theorem shows_search_changed_query : ∃ h s,
    Reaches (traced (step plainPlatform)) Undisturbed (initial true) h s ∧ s.controller.isDisposed = false ∧
      s.controller.remoteSearchActive = true ∧ s.controller.search.searching = false ∧
      s.controller.search.rows.map SftpFileEntry.name = ["log"] ∧ s.ShowsSearch plainPlatform h := by
  have hattach : Reaches (traced (step plainPlatform)) Undisturbed (initial true) _ _ :=
    .next (e := .attachRemoteProfile (some (keyProfile "p")) "~") .start (by exact trivial) rfl
  have hconnected := hattach.next (e := .connected 0 (.ok "a")) (by exact trivial) rfl
  have hresolved := hconnected.next (e := .resolved 0 (some "/home/me")) (by exact trivial) rfl
  have hlisted := hresolved.next (e := .listed 0 (some [])) (by exact trivial) rfl
  have hsearch := hlisted.next (e := .searchRemote "tmp") (by exact trivial) rfl
  have htimer := hsearch.next (e := .searchTimer) (by exact trivial) rfl
  have hfolder := htimer.next (e := .searchResolved 0 (some "/home/me")) (by exact trivial) rfl
  have hchanged := hfolder.next (e := .searchRemote "log") (by exact trivial) rfl
  have hbegun := hchanged.next (e := .searchTimer) (by exact trivial) rfl
  have hold := hbegun.next (e := .found 0 (some [⟨"tmp", "/home/me/tmp", false, 0, 0, 0⟩])) (by
    intro search _ _ _ sessionId input hdebounce
    cases hdebounce) rfl
  have hfolder' := hold.next (e := .searchResolved 1 (some "/home/me")) (by exact trivial) rfl
  have hfound := hfolder'.next (e := .found 1 (some [⟨"log", "/home/me/log", false, 0, 0, 0⟩])) (by
    intro search _ _ _ sessionId input hdebounce
    cases hdebounce) rfl
  exact ⟨_, _, hfound, rfl, by decide, rfl, rfl, shows_search hfound⟩

/-- The answer to a search comes while the next one waits for the timer. -/
theorem other_search_shown : ¬∀ h s,
    Reaches (traced (step plainPlatform)) (fun _ _ => True) (initial true) h s → s.ShowsSearch plainPlatform h := by
  intro hall
  obtain ⟨h, s, hreach, hdisposed, hactive, hdone, hquery, hsearches⟩ :=
    Reaches.exists_of_events (traced (step plainPlatform)) (initial true)
      (P := fun s => s.controller.isDisposed = false ∧ s.controller.remoteSearchActive = true ∧
        s.controller.search.searching = false ∧ s.controller.search.query = "tmp" ∧
        s.searches.map (fun search => search.input.query) = ["log"])
      [.attachRemoteProfile (some (keyProfile "p")) "~", .connected 0 (.ok "a"), .resolved 0 (some "/home/me"),
        .listed 0 (some []), .searchRemote "log", .searchTimer, .searchResolved 0 (some "/home/me"),
        .searchRemote "tmp", .found 0 (some [⟨"log", "/home/me/log", false, 0, 0, 0⟩])]
      (by decide)
  obtain ⟨i, search, hat, -, houtcome⟩ := hall h s hreach hdisposed hactive hdone
  have hmem := List.mem_map_of_mem (f := fun search => search.input.query) (List.mem_of_getElem? hat)
  rw [hsearches, List.mem_singleton] at hmem
  have hshown : s.controller.search.query = search.input.query := by
    generalize s.controller.search = shown at houtcome
    cases houtcome <;> rfl
  rw [hquery, hmem] at hshown
  exact absurd hshown (by decide)

end Portix.SftpWorkspace.SftpPane
