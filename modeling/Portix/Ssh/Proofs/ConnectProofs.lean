import Portix.Ssh.Connect
import Portix.Ssh.Proofs.KeyboardInteractiveProofs

/-!
# Proofs: connecting

A session is reached when its server showed its key over the jump host of the profile, itself logged in to, and
the key was accepted. Everything a login sends is allowed by what came before: by induction on the chain.
-/

namespace Portix.Ssh

open Lib Domain

section

variable {Key PrivateKey : Type}

abbrev LoginStep (Key PrivateKey : Type) : Type := Prog.Event (LoginCall Key PrivateKey) LoginAnswer

abbrev History (Key PrivateKey : Type) : Type := List (LoginStep Key PrivateKey)

/-- What a server said to a step of the authentication of its session. -/
def LoginStep.verdict : LoginStep Key PrivateKey → Option (Nat × AuthResponse)
  | ⟨.authenticatePublickey session _ _ _, .ok true⟩ => some (session, .success)
  | ⟨.authenticatePassword session _ _, .ok true⟩ => some (session, .success)
  | ⟨.authenticatePublickeyWith session _ _ _, .ok true⟩ => some (session, .success)
  | ⟨.interactiveStart session _, .ok response⟩ => some (session, response)
  | ⟨.interactiveRespond session _, .ok response⟩ => some (session, response)
  | _ => none

/-- The server of the profile showed its key, the key was accepted, and the session was made. -/
def Trusted (profile : LoginProfile) (jump : Option Nat) (session : Nat) (es : History Key PrivateKey) :
    Prop :=
  ∃ key forwardTo, [⟨.connect jump (profile.client forwardTo), .ok (key, session)⟩,
    ⟨.verifyHostKey profile.host profile.port key, .ok ()⟩, ⟨.finishConnect session, .ok ()⟩] <:+: es

inductive Reached : JumpChain → Nat → History Key PrivateKey → Prop
  | direct {profile : LoginProfile} {session : Nat} {es : History Key PrivateKey}
      (htrusted : Trusted profile none session es) : Reached (.direct profile) session es
  | via {profile : LoginProfile} {jumpHost : JumpChain} {jump session : Nat}
      {es₁ es₂ : History Key PrivateKey} {e : LoginStep Key PrivateKey}
      (hjump : Reached jumpHost jump es₁) (haccepted : e.verdict = some (jump, .success))
      (htrusted : Trusted profile (some jump) session es₂) :
      Reached (.via profile jumpHost) session (es₁ ++ e :: es₂)

def LoggedIn (chain : JumpChain) (session : Nat) (es : History Key PrivateKey) : Prop :=
  ∃ es₁ e es₂, es = es₁ ++ e :: es₂ ∧ Reached chain session es₁ ∧ e.verdict = some (session, .success)

/-- The way to the server of a chain: over its jump host, which has been logged in to. -/
def Leads (before : History Key PrivateKey) : JumpChain → Option Nat → Prop
  | .direct _, jump => jump = none
  | .via _ jumpHost, jump => ∃ session, jump = some session ∧ LoggedIn jumpHost session before

/-- The session is one to a server of the chain that was reached, and its profile satisfies `P`. -/
def SessionOf (chain : JumpChain) (before : History Key PrivateKey) (session : Nat) (P : LoginProfile → Prop) : Prop :=
  ∃ link ∈ chain.links, Reached link session before ∧ P link.profile

/-- What the server of a link may open: only the last one of the chain opens anything. -/
def MayOpen (chain : JumpChain) (forwardTo : Option (String × UInt16)) (link : JumpChain)
    (opens : Option (String × UInt16)) : Prop :=
  opens = none ∨ link = chain ∧ opens = forwardTo

/-- The servers of the chain are connected to, each by its own way, and only the last of them may open
`forwardTo`; and what is sent over a session is what the profile of its server says for it. -/
def Allowed (home : Option String) (chain : JumpChain) (forwardTo : Option (String × UInt16))
    (before : History Key PrivateKey) : LoginCall Key PrivateKey → Prop
  | .connect jump handler => ∃ link ∈ chain.links, Leads before link jump ∧ ∃ opens,
      handler = link.profile.client opens ∧ MayOpen chain forwardTo link opens
  | .bestSupportedRsaHash session => SessionOf chain before session fun _ => True
  | .authenticatePublickey session username key _ => SessionOf chain before session fun profile =>
      username = profile.username ∧ ∃ path ∈ profile.privateKeyPath,
        ⟨.loadSecretKey (expandUserPath home path) profile.keyPassphrase, .ok key⟩ ∈ before
  | .authenticatePassword session username password => SessionOf chain before session fun profile =>
      username = profile.username ∧ profile.privateKeyPath = none ∧ profile.password = some password
  | .authenticatePublickeyWith session username identity _ => SessionOf chain before session fun profile =>
      username = profile.username ∧ profile.privateKeyPath = none ∧ profile.password = none ∧
        ∃ identities, ⟨.requestIdentities, .ok identities⟩ ∈ before ∧ identity ∈ identities
  | .interactiveStart session username => SessionOf chain before session fun profile => username = profile.username
  | .interactiveRespond session reply => SessionOf chain before session fun profile =>
      ∃ earlier e round answers, before = earlier ++ [e] ∧ e.verdict = some (session, .infoRequest round) ∧
        ReplyFrom profile.password answers round reply ∧
        ∀ typed ∈ answers, ∃ all, ⟨.takeAnswers profile.host profile.port, all⟩ ∈ before ∧ typed ∈ all
  | _ => True

variable {home : Option String} {chain link : JumpChain} {forwardTo : Option (String × UInt16)} {fuel : Nat}
  {jump session : Nat} {before es es' : History Key PrivateKey}

theorem Trusted.mono {profile : LoginProfile} {jump : Option Nat} (h : Trusted profile jump session es)
    (hsub : es <:+: es') : Trusted profile jump session es' := by
  obtain ⟨key, forwardTo, hinfix⟩ := h
  exact ⟨key, forwardTo, hinfix.trans hsub⟩

theorem Reached.append (h : Reached link session es) (es' : History Key PrivateKey) :
    Reached link session (es ++ es') := by
  cases h with
  | direct htrusted => exact .direct (htrusted.mono (List.prefix_append ..).isInfix)
  | via hjump haccepted htrusted =>
    rw [List.append_assoc, List.cons_append]
    exact .via hjump haccepted (htrusted.mono (List.prefix_append ..).isInfix)

theorem Reached.loggedIn (h : Reached link session es) {e : LoginStep Key PrivateKey}
    (haccepted : e.verdict = some (session, .success)) : LoggedIn link session (es ++ [e]) :=
  ⟨es, e, [], rfl, h, haccepted⟩

theorem reached_of_leads {jump : Option Nat} (hleads : Leads es link jump)
    (htrusted : Trusted link.profile jump session es') : Reached link session (es ++ es') := by
  cases link with
  | direct profile =>
    obtain rfl := hleads
    exact .direct (htrusted.mono (List.suffix_append ..).isInfix)
  | via profile jumpHost =>
    obtain ⟨session', rfl, es₁, e, es₂, rfl, hreached, haccepted⟩ := hleads
    rw [List.append_assoc, List.cons_append]
    exact .via hreached haccepted (htrusted.mono (List.suffix_append ..).isInfix)

theorem guarded_orResult {α β : Type} {answer : Except PortixError α}
    {ok : History Key PrivateKey → LoginCall Key PrivateKey → Prop}
    {D : Except PortixError β → History Key PrivateKey → Prop}
    {f : α → LoginM Key PrivateKey (Except PortixError β)} (herror : ∀ e, D (.error e) before)
    (hf : ∀ a, answer = .ok a → (f a).Guarded ok D before) : (orResult answer f).Guarded ok D before := by
  cases answer with
  | error e => exact herror e
  | ok a => exact hf a rfl

/-- After a step of the primary login: the session is still there, and a success is a login. -/
def PrimaryEnd (link : JumpChain) (session : Nat) (result : Except PortixError Bool)
    (es : History Key PrivateKey) : Prop :=
  Reached link session es ∧ (result = .ok true → LoggedIn link session es)

def LoginEnd (link : JumpChain) (session : Nat) (authenticated : Bool) (es : History Key PrivateKey) : Prop :=
  authenticated = true → LoggedIn link session es

/-- The key was loaded from the path of the profile, which has none without one. -/
def KeyOf (home : Option String) (profile : LoginProfile) (keyPair : Option PrivateKey)
    (es : History Key PrivateKey) : Prop :=
  (∀ key ∈ keyPair, ∃ path ∈ profile.privateKeyPath,
    ⟨.loadSecretKey (expandUserPath home path) profile.keyPassphrase, .ok key⟩ ∈ es) ∧
  (keyPair = none → profile.privateKeyPath = none)

theorem PrimaryEnd.of_ne {result : Except PortixError Bool} (h : Reached link session es)
    (hne : result ≠ .ok true) : PrimaryEnd link session result es := ⟨h, fun hresult => absurd hresult hne⟩

theorem openSession_guarded {jump : Option Nat} (hlink : link ∈ chain.links) (hleads : Leads before link jump)
    {opens : Option (String × UInt16)} (hopens : MayOpen chain forwardTo link opens) :
    (openSession (link.profile.client opens) jump).Guarded (Allowed home chain forwardTo)
      (fun session es => Reached link session es) before := by
  refine Prog.Guarded.call ⟨link, hlink, hleads, opens, rfl, hopens⟩ fun shown =>
    Prog.Guarded.lift fun ⟨key, session⟩ hshown => ?_
  refine Prog.Guarded.call trivial fun accepted => Prog.Guarded.lift fun _ haccepted => ?_
  refine Prog.Guarded.call trivial fun finished => Prog.Guarded.lift fun _ hfinished => ?_
  subst hshown haccepted hfinished
  show Reached link session _
  rw [List.append_assoc, List.append_assoc]
  exact reached_of_leads hleads ⟨key, opens, List.infix_rfl⟩

theorem tryIdentities_guarded (hlink : link ∈ chain.links) (hpath : link.profile.privateKeyPath = none)
    (hpassword : link.profile.password = none) {identities rest : List Key} (hreached : Reached link session before)
    (hmem : ⟨.requestIdentities, .ok identities⟩ ∈ before) (hsub : rest ⊆ identities) :
    (tryIdentities link.profile.username session rest).Guarded (Allowed home chain forwardTo)
      (PrimaryEnd link session) before := by
  induction rest generalizing before with
  | nil => exact .of_ne hreached (by simp)
  | cons identity rest ih =>
    refine Prog.Guarded.call ⟨link, hlink, hreached, trivial⟩ fun hash => ?_
    have hreached := hreached.append [⟨_, hash⟩]
    refine guarded_orResult (fun e => .of_ne hreached (by simp)) fun hash _ => ?_
    refine Prog.Guarded.call ⟨link, hlink, hreached, rfl, hpath, hpassword, identities,
      List.mem_append_left _ hmem, hsub (List.mem_cons_self ..)⟩ fun result => ?_
    have hafter := hreached.append [⟨_, result⟩]
    refine guarded_orResult (fun e => .of_ne hafter (by simp)) fun success hresult => ?_
    cases success with
    | true =>
      subst hresult
      exact ⟨hafter, fun _ => hreached.loggedIn rfl⟩
    | false =>
      exact ih hafter (List.mem_append_left _ (List.mem_append_left _ hmem)) (List.cons_subset.mp hsub).2

theorem authenticatePrimary_guarded (hlink : link ∈ chain.links) (hreached : Reached link session before)
    {keyPair : Option PrivateKey} (hkey : KeyOf home link.profile keyPair before) :
    (authenticatePrimary link.profile session keyPair).Guarded (Allowed home chain forwardTo)
      (PrimaryEnd link session) before := by
  unfold authenticatePrimary
  cases keyPair with
  | some key =>
    refine Prog.Guarded.call ⟨link, hlink, hreached, trivial⟩ fun hash => ?_
    have hreached := hreached.append [⟨_, hash⟩]
    refine guarded_orResult (fun e => .of_ne hreached (by simp)) fun hash _ => ?_
    obtain ⟨path, hpath, hmem⟩ := hkey.1 key rfl
    refine Prog.Guarded.call ⟨link, hlink, hreached, rfl, path, hpath, List.mem_append_left _ hmem⟩
      fun result => ?_
    have hafter := hreached.append [⟨_, result⟩]
    refine guarded_orResult (fun e => .of_ne hafter (by simp)) fun success hresult => ⟨hafter, ?_⟩
    rintro ⟨⟩
    subst hresult
    exact hreached.loggedIn rfl
  | none =>
    have hpath := hkey.2 rfl
    cases hpassword : link.profile.password with
    | some password =>
      dsimp only
      refine Prog.Guarded.call ⟨link, hlink, hreached, rfl, hpath, hpassword⟩ fun result => ?_
      have hafter := hreached.append [⟨_, result⟩]
      refine guarded_orResult (fun e => .of_ne hafter (by simp)) fun success hresult => ⟨hafter, ?_⟩
      rintro ⟨⟩
      subst hresult
      exact hreached.loggedIn rfl
    | none =>
      dsimp only
      refine Prog.Guarded.call trivial fun agent => ?_
      have hreached := hreached.append [⟨_, agent⟩]
      refine guarded_orResult (fun e => .of_ne hreached (by simp)) fun _ _ => ?_
      refine Prog.Guarded.call trivial fun found => ?_
      have hreached := hreached.append [⟨_, found⟩]
      refine guarded_orResult (fun e => .of_ne hreached (by simp)) fun identities hfound => ?_
      split
      · exact .of_ne hreached (by simp)
      · subst hfound
        exact tryIdentities_guarded hlink hpath hpassword hreached (by simp) (List.Subset.refl _)

theorem interactiveRounds_guarded (hlink : link ∈ chain.links) {all answers answered : List (List String)}
    {response : AuthResponse} {e : LoginStep Key PrivateKey} (hreached : Reached link session es)
    (hverdict : e.verdict = some (session, response))
    (hmem : ⟨.takeAnswers link.profile.host link.profile.port, all⟩ ∈ es ++ [e]) (hsub : answers ⊆ all) :
    (interactiveRounds link.profile session fuel answers answered response).Guarded (Allowed home chain forwardTo)
      (LoginEnd link session) (es ++ [e]) := by
  induction fuel generalizing es e answers answered response with
  | zero => trivial
  | succ fuel ih =>
    cases response with
    | success => exact fun _ => hreached.loggedIn hverdict
    | failure => exact fun hne => absurd hne Bool.false_ne_true
    | infoRequest round =>
      have hresponds : ∀ reply typed (answers answered : List (List String)),
          ReplyFrom link.profile.password typed round reply → (∀ a ∈ typed, a ∈ all) → answers ⊆ all →
          (Prog.call (.interactiveRespond session reply) >>= Prog.lift >>= fun response =>
            interactiveRounds link.profile session fuel answers answered response).Guarded
            (Allowed home chain forwardTo)
            (LoginEnd link session) (es ++ [e]) := by
        intro reply typed answers answered hreply htyped hsub
        have hafter := hreached.append [e]
        refine Prog.Guarded.call ⟨link, hlink, hafter, es, e, round, typed, rfl, hverdict, hreply,
          fun a ha => ⟨all, hmem, htyped a ha⟩⟩ fun answer => Prog.Guarded.lift fun response hanswer => ?_
        subst hanswer
        exact ih hafter rfl (List.mem_append_left _ hmem) hsub
      unfold interactiveRounds
      rcases turn_cases link.profile.password round answers answered with
        ⟨-, reply, hreply, hturn⟩ | ⟨hneeds, ⟨-, hturn⟩ | ⟨a, rest, rfl, hturn⟩⟩
      · rw [hturn]
        exact hresponds reply none answers answered hreply (by simp) hsub
      · rw [hturn]
        exact Prog.Guarded.call trivial fun _ => trivial
      · rw [hturn]
        obtain ⟨ha, hrest⟩ := List.cons_subset.mp hsub
        exact hresponds (.typed a) (some a) rest _ ⟨hneeds, rfl⟩ (by simpa using ha) hrest

theorem authenticateInteractive_guarded (hlink : link ∈ chain.links) (hreached : Reached link session before) :
    (authenticateInteractive fuel link.profile session).Guarded (Allowed home chain forwardTo)
      (LoginEnd link session) before := by
  refine Prog.Guarded.call trivial fun all => ?_
  have hreached := hreached.append [⟨_, all⟩]
  refine Prog.Guarded.call ⟨link, hlink, hreached, rfl⟩ fun answer =>
    Prog.Guarded.lift fun response hanswer => ?_
  subst hanswer
  exact interactiveRounds_guarded hlink hreached rfl (by simp) (List.Subset.refl all)

theorem loadKeyPair_guarded (hreached : Reached link session before) :
    (loadKeyPair home link.profile).Guarded (Allowed home chain forwardTo)
      (fun keyPair es => Reached link session es ∧ KeyOf home link.profile keyPair es) before := by
  unfold loadKeyPair KeyOf
  cases hpath : link.profile.privateKeyPath with
  | none => exact ⟨hreached, by simp, fun _ => rfl⟩
  | some path =>
    refine Prog.Guarded.call trivial fun key => ?_
    cases key with
    | error e => trivial
    | ok key => exact ⟨hreached.append _, by simp, by simp⟩

theorem afterPrimary_guarded (hlink : link ∈ chain.links) {result : Except PortixError Bool}
    (hend : PrimaryEnd link session result before) :
    (afterPrimary fuel link.profile session result).Guarded (Allowed home chain forwardTo)
      (LoginEnd link session) before := by
  obtain ⟨hreached, hlogin⟩ := hend
  unfold afterPrimary
  split
  · exact fun _ => hlogin rfl
  · exact authenticateInteractive_guarded hlink hreached
  · refine (authenticateInteractive_guarded hlink hreached).bind fun authenticated es hlogin => ?_
    split
    · exact fun _ => hlogin ‹_›
    · trivial
  · trivial

theorem authenticateSession_guarded (hlink : link ∈ chain.links) (hreached : Reached link session before) :
    (authenticateSession home fuel link.profile session).Guarded (Allowed home chain forwardTo)
      (LoggedIn link) before := by
  refine (loadKeyPair_guarded hreached).bind fun keyPair es ⟨hreached, hkey⟩ => ?_
  refine (authenticatePrimary_guarded hlink hreached hkey).bind fun result es hend => ?_
  refine (afterPrimary_guarded hlink hend).bind fun authenticated es hlogin => ?_
  split
  · exact hlogin ‹_›
  · trivial

theorem connect_guarded {opens : Option (String × UInt16)} (hlinks : link.links ⊆ chain.links)
    (hopens : MayOpen chain forwardTo link opens) (before : History Key PrivateKey) :
    (connectForwardingTo home fuel link opens).Guarded (Allowed home chain forwardTo) (LoggedIn link) before := by
  induction link generalizing opens before with
  | direct profile =>
    have hlink : .direct profile ∈ chain.links := hlinks (List.mem_cons_self ..)
    refine Prog.Guarded.call trivial fun _ => ?_
    exact (openSession_guarded hlink rfl hopens).bind fun session es hreached =>
      authenticateSession_guarded hlink hreached
  | via profile jumpHost ih =>
    obtain ⟨hlink, hrest⟩ := List.cons_subset.mp hlinks
    refine Prog.Guarded.call trivial fun _ => ?_
    refine (ih hrest (Or.inl rfl) _).bind fun jump es hjump => ?_
    exact (openSession_guarded hlink ⟨jump, rfl, hjump⟩ hopens).bind fun session es hreached =>
      authenticateSession_guarded hlink hreached

/-- Connecting by way of jump hosts. Whatever the servers, the agent and the files answer, and wherever the
login is cut off: every step of it is allowed by the ones before; and its session is logged in to. -/
theorem login_allowed {σ : Type} (env : Prog.Environment (LoginCall Key PrivateKey) LoginAnswer σ) (s : σ)
    (home : Option String) (fuel : Nat) (chain : JumpChain) (forwardTo : Option (String × UInt16)) :
    Prog.Meets env (connectForwardingTo home fuel chain forwardTo) s
      (Prog.Justified (Allowed home chain forwardTo)) (LoggedIn chain) :=
  (connect_guarded (List.Subset.refl _) (Or.inr ⟨rfl, rfl⟩) []).meets

end

end Portix.Ssh
