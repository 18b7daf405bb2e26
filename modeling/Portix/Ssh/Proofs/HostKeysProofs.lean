import Portix.Ssh.HostKeys

/-!
# Proofs: host keys

A check accepts recorded keys only, and known_hosts grows by trust calls only, each adding the key
that was refused before. That the added key is not recorded next to another one needs more: a
refusal made because no key was recorded must be remembered before one is.
-/

namespace Portix.Ssh

open Lib Domain

variable {Key : Type} {format : KeyFormat Key} {file : List (KnownHost Key)} {s s' : HostKeyState Key}
  {e : HostKeyEvent Key} {h o : List (HostKeyObs Key)} {host : String} {port : UInt16} {key : Key}

theorem mem_knownHostKeys {line : Nat} (hmem : (line, key) ∈ knownHostKeys file host port) :
    ⟨host, port, key⟩ ∈ file := by
  obtain ⟨⟨entry, i⟩, hentry, heq⟩ := List.mem_filterMap.mp hmem
  obtain ⟨-, -, hget⟩ := List.mem_zipIdx hentry
  split at heq
  · rename_i hid
    obtain ⟨rfl, rfl⟩ := hid
    cases heq
    rw [hget]
    exact List.getElem_mem _
  · cases heq

theorem trust_cases {pending pending' : PendingKeys Key} {file' : List (KnownHost Key)} {fingerprint : String}
    {failure : Option String}
    {r : Except PortixError Unit}
    (htrust : trustPendingHostKey pending file host port fingerprint failure =
      (r, pending', file')) :
    (pending' = pending ∧ file' = file) ∨ ∃ entry, pending (host, port) = some entry ∧ entry.changedLine = none ∧
        entry.fingerprint = fingerprint ∧ failure = none ∧
        pending' = Function.update pending (host, port) none ∧
        file' = learnKnownHost file host port entry.key := by
  unfold trustPendingHostKey at htrust
  split at htrust
  · obtain ⟨-, rfl, rfl⟩ := htrust
    exact Or.inl ⟨rfl, rfl⟩
  · rename_i entry hentry
    split at htrust
    · obtain ⟨-, rfl, rfl⟩ := htrust
      exact Or.inl ⟨rfl, rfl⟩
    · rename_i hchanged
      split at htrust
      · obtain ⟨-, rfl, rfl⟩ := htrust
        exact Or.inl ⟨rfl, rfl⟩
      · rename_i hfingerprint
        split at htrust
        · obtain ⟨-, rfl, rfl⟩ := htrust
          exact Or.inl ⟨rfl, rfl⟩
        · obtain ⟨-, rfl, rfl⟩ := htrust
          exact Or.inr ⟨entry, hentry, by simpa using hchanged, not_not.mp hfingerprint, rfl, rfl,
            rfl⟩

variable [DecidableEq Key]

theorem recorded_of_accept (haccept : checkRecorded (knownHostKeys file host port) key = .accept) :
    ⟨host, port, key⟩ ∈ file := by
  unfold checkRecorded at haccept
  split at haccept
  · rename_i hany
    obtain ⟨⟨line, known⟩, hmem, heq⟩ := List.any_eq_true.mp hany
    obtain rfl : known = key := by simpa using heq
    exact mem_knownHostKeys hmem
  · cases haccept

/-- What a step can do: change neither the file nor a pending key, and accept recorded keys only;
remember a refused key; drop a pending key; or trust one. -/
theorem step_cases (hstep : hostKeyStep format s e = some (s', o)) : (s'.file = s.file ∧ s'.pending = s.pending ∧
      ∀ host port key, .accepted host port key ∈ o → ⟨host, port, key⟩ ∈ s.file) ∨
    (∃ i v error, e = .remember i ∧ s.verifying[i]? = some v ∧ s'.file = s.file ∧
      s'.pending = rememberOfferedKey format s.pending v.host v.port v.key v.changedLine ∧
      o = [.refused v.host v.port v.key error]) ∨
    (∃ id, s'.file = s.file ∧ s'.pending = Function.update s.pending id none ∧ o = []) ∨
    ∃ host port entry r, e = .trust host port entry.fingerprint none ∧
      s.pending (host, port) = some entry ∧ entry.changedLine = none ∧
      s'.pending = Function.update s.pending (host, port) none ∧
      s'.file = learnKnownHost s.file host port entry.key ∧ o = [.trusted r] := by
  cases e with
  | read host port key failure =>
    refine Or.inl ?_
    cases failure with
    | some msg =>
      cases hstep
      exact ⟨rfl, rfl, by simp⟩
    | none =>
      rw [hostKeyStep] at hstep
      split at hstep
      · rename_i haccept
        cases hstep
        refine ⟨rfl, rfl, fun host' port' key' hobs => ?_⟩
        obtain ⟨rfl, rfl, rfl⟩ : host' = host ∧ port' = port ∧ key' = key := by simpa using hobs
        exact recorded_of_accept haccept
      · cases hstep
        exact ⟨rfl, rfl, by simp⟩
  | remember i =>
    rw [hostKeyStep] at hstep
    split at hstep
    · cases hstep
    · rename_i v hv
      cases hstep
      exact Or.inr (Or.inl ⟨i, v, _, rfl, hv, rfl, rfl, rfl⟩)
  | forget host port =>
    cases hstep
    exact Or.inr (Or.inr (Or.inl ⟨_, rfl, rfl, rfl⟩))
  | peek host port =>
    cases hstep
    exact Or.inl ⟨rfl, rfl, by simp⟩
  | trust host port fingerprint failure =>
    rw [hostKeyStep] at hstep
    split at hstep
    rename_i r pending' file' htrust
    cases hstep
    rcases trust_cases htrust with
      ⟨hpending, hfile⟩ | ⟨entry, hentry, hnew, rfl, rfl, hpending, hfile⟩
    · exact Or.inl ⟨hfile, hpending, by simp⟩
    · exact Or.inr (Or.inr (Or.inr ⟨host, port, entry, r, rfl, hentry, hnew, hpending, hfile, rfl⟩))

theorem step_file (hstep : hostKeyStep format s e = some (s', o)) :
    s'.file = s.file ∨ ∃ host port entry, e = .trust host port entry.fingerprint none ∧
      s.pending (host, port) = some entry ∧ entry.changedLine = none ∧
      s'.pending = Function.update s.pending (host, port) none ∧
      s'.file = learnKnownHost s.file host port entry.key := by
  rcases step_cases hstep with ⟨hfile, -⟩ | ⟨_, _, _, -, -, hfile, -⟩ | ⟨_, hfile, -⟩ |
    ⟨host, port, entry, _, he, hentry, hnew, hpending, hfile, -⟩
  · exact Or.inl hfile
  · exact Or.inl hfile
  · exact Or.inl hfile
  · exact Or.inr ⟨host, port, entry, he, hentry, hnew, hpending, hfile⟩

theorem step_pending {entry : PendingHostKey Key}
    (hstep : hostKeyStep format s e = some (s', o)) (hentry : s'.pending (host, port) = some entry) :
    s.pending (host, port) = some entry ∨ ∃ i v error, e = .remember i ∧
      s.verifying[i]? = some v ∧ v.host = host ∧ v.port = port ∧
      entry = ⟨format.algorithm v.key, format.fingerprint v.key, v.changedLine, v.key⟩ ∧
      HostKeyObs.refused host port v.key error ∈ o := by
  have hdropped : ∀ id : String × UInt16, s'.pending = Function.update s.pending id none →
      s.pending (host, port) = some entry := by
    intro id hpending
    rw [hpending] at hentry
    by_cases heq : (host, port) = id
    · rw [heq, Function.update_self] at hentry
      cases hentry
    · rwa [Function.update_of_ne heq] at hentry
  rcases step_cases hstep with ⟨-, hpending, -⟩ | ⟨i, v, error, he, hv, -, hpending, rfl⟩ |
    ⟨id, -, hpending, -⟩ | ⟨_, _, _, _, -, -, -, hpending, -⟩
  · exact Or.inl (by rw [← hpending, hentry])
  · rw [hpending, rememberOfferedKey] at hentry
    by_cases hid : (host, port) = (v.host, v.port)
    · cases hid
      rw [Function.update_self, Option.some.injEq] at hentry
      exact Or.inr ⟨i, v, error, he, hv, rfl, rfl, hentry.symm, List.mem_singleton_self _⟩
    · rw [Function.update_of_ne hid] at hentry
      exact Or.inl hentry
  · exact Or.inl (hdropped id hpending)
  · exact Or.inl (hdropped _ hpending)

theorem step_accepted (hstep : hostKeyStep format s e = some (s', o)) (hobs : .accepted host port key ∈ o) :
    ⟨host, port, key⟩ ∈ s.file := by
  rcases step_cases hstep with ⟨-, -, haccepted⟩ | ⟨_, _, _, -, -, -, -, rfl⟩ | ⟨_, -, -, rfl⟩ |
    ⟨_, _, _, _, -, -, -, -, -, rfl⟩
  · exact haccepted host port key hobs
  · simp at hobs
  · cases hobs
  · simp at hobs

/-- Every pending key has been refused, and is kept under its own fingerprint. -/
def Remembered (format : KeyFormat Key) (h : List (HostKeyObs Key)) (s : HostKeyState Key) : Prop :=
  ∀ host port entry, s.pending (host, port) = some entry →
    entry.fingerprint = format.fingerprint entry.key ∧
      ∃ error, HostKeyObs.refused host port entry.key error ∈ h

theorem reaches_remembered {G : HostKeyState Key → HostKeyEvent Key → Prop}
    (hreach : Reaches (hostKeyStep format) G (.initial file) h s) : Remembered format h s := by
  refine hreach.invariant (I := Remembered format) ?_ ?_
  · rintro host port entry ⟨⟩
  · intro h s e s' o hinv _ hstep host port entry hentry
    rcases step_pending hstep hentry with hold | ⟨_, v, error, -, -, -, -, rfl, hobs⟩
    · obtain ⟨hfp, error, hobs⟩ := hinv host port entry hold
      exact ⟨hfp, error, List.mem_append_left _ hobs⟩
    · exact ⟨rfl, error, List.mem_append_right _ hobs⟩

/-- No key that could be trusted is pending next to a recorded other one. -/
def Trustworthy (_h : List (HostKeyObs Key)) (s : HostKeyState Key) : Prop :=
  ∀ host port entry, s.pending (host, port) = some entry → entry.changedLine = none →
    OnlyRecorded s.file host port entry.key

theorem reaches_trustworthy (hreach : Reaches (hostKeyStep format) Fresh (.initial file) h s) : Trustworthy h s := by
  refine hreach.invariant (I := Trustworthy) ?_ ?_
  · rintro host port entry ⟨⟩
  · intro h s e s' o hinv hfresh hstep host port entry hentry hnew
    rcases step_file hstep with hfile | ⟨host', port', added, -, -, -, hpending, hfile⟩
    · rw [hfile]
      rcases step_pending hstep hentry with hold | ⟨i, v, _, rfl, hv, rfl, rfl, rfl, -⟩
      · exact hinv host port entry hold hnew
      · exact hfresh v hv hnew
    · -- The key just trusted is no longer pending; the others belong to other hosts.
      have hne : (host, port) ≠ (host', port') := by
        rintro heq
        rw [hpending, heq, Function.update_self] at hentry
        cases hentry
      rw [hpending, Function.update_of_ne hne] at hentry
      rw [hfile]
      intro known hknown hhost hport
      rcases List.mem_append.mp hknown with hold | hlast
      · exact hinv host port entry hentry hnew known hold hhost hport
      · obtain rfl := List.mem_singleton.mp hlast
        exact absurd (Prod.ext hhost hport).symm hne

/-- A trust call for a refused key, by its fingerprint, records that key. -/
def TrustAdds (format : KeyFormat Key) (h : List (HostKeyObs Key)) (s : HostKeyState Key)
    (e : HostKeyEvent Key) (s' : HostKeyState Key) : Prop :=
  ∃ host port key error, e = .trust host port (format.fingerprint key) none ∧
    HostKeyObs.refused host port key error ∈ h ∧ s'.file = learnKnownHost s.file host port key

/-- Trust is not gained silently. In every run a check accepts recorded keys only, and known_hosts
grows only by trust calls naming the fingerprint of a key refused before. In every run whose
refusals are remembered fresh, no key is added where another one is recorded. -/
theorem host_key_trust (format : KeyFormat Key) (file : List (KnownHost Key)) :
    (∀ h s e s' o, Reaches (hostKeyStep format) (fun _ _ => True) (.initial file) h s →
      hostKeyStep format s e = some (s', o) →
      (∀ host port key, .accepted host port key ∈ o → ⟨host, port, key⟩ ∈ s.file) ∧
      (s'.file = s.file ∨ TrustAdds format h s e s')) ∧
    ∀ h s e s' o, Reaches (hostKeyStep format) Fresh (.initial file) h s →
      hostKeyStep format s e = some (s', o) →
      ∀ host port key, s'.file = learnKnownHost s.file host port key →
        OnlyRecorded s.file host port key := by
  refine ⟨fun h s e s' o hreach hstep => ⟨fun _ _ _ hobs => step_accepted hstep hobs, ?_⟩, ?_⟩
  · rcases step_file hstep with hsame | ⟨host, port, entry, rfl, hentry, -, -, hfile⟩
    · exact Or.inl hsame
    · obtain ⟨hfp, error, hobs⟩ := reaches_remembered hreach host port entry hentry
      exact Or.inr ⟨host, port, entry.key, error, by rw [hfp], hobs, hfile⟩
  · intro h s e s' o hreach hstep host port key hadded
    rcases step_file hstep with hsame | ⟨host', port', entry, -, hentry, hnew, -, hfile⟩
    · rw [hsame] at hadded
      simp [learnKnownHost] at hadded
    · have hsame : (⟨host', port', entry.key⟩ : KnownHost Key) = ⟨host, port, key⟩ := by
        simpa [learnKnownHost] using hfile.symm.trans hadded
      cases hsame
      exact reaches_trustworthy hreach _ _ entry hentry hnew

def twoKeys : KeyFormat Bool := ⟨fun _ => "ssh-ed25519", fun key => if key then "A" else "B"⟩

/-- The key of a new host is trusted next to the recorded key of another one. -/
theorem host_key_trust_new_host :
    ∃ h s s' o, Reaches (hostKeyStep twoKeys) Fresh (.initial [⟨"old", 22, false⟩]) h s ∧
      hostKeyStep twoKeys s (.trust "new" 22 "A" none) = some (s', o) ∧
      s'.file = [⟨"old", 22, false⟩, ⟨"new", 22, true⟩] ∧ OnlyRecorded s.file "new" 22 true := by
  have hstart : Reaches (hostKeyStep twoKeys) Fresh (.initial [⟨"old", 22, false⟩]) []
      (.initial [⟨"old", 22, false⟩]) := .start
  have hread := hstart.next (e := HostKeyEvent.read "new" 22 true none) trivial rfl
  have hremember := hread.next (e := HostKeyEvent.remember 0) (by
    rintro v ⟨rfl⟩ - known hknown hhost -
    obtain rfl := List.mem_singleton.mp hknown
    exact absurd hhost (by decide)) rfl
  exact ⟨_, _, _, _, hremember, rfl, rfl, (host_key_trust twoKeys _).2 _ _
    (.trust "new" 22 "A" none) _ _ hremember rfl "new" 22 true rfl⟩

/-- Two checks of one new host read known_hosts, and then each is answered by a trust call. -/
theorem host_key_trust_stale :
    ¬ ∀ h s e s' o, Reaches (hostKeyStep twoKeys) (fun _ _ => True) (.initial []) h s →
      hostKeyStep twoKeys s e = some (s', o) →
      ∀ host port key, s'.file = learnKnownHost s.file host port key →
        OnlyRecorded s.file host port key := by
  intro hclaim
  have hstart : Reaches (hostKeyStep twoKeys) (fun _ _ => True) (.initial []) [] (.initial []) :=
    .start
  have hreach := Reaches.of_runEvents [.read "h" 22 true none, .read "h" 22 false none,
    .remember 0, .trust "h" 22 "A" none, .remember 0] (fun _ _ _ => trivial) hstart rfl
  have hrecorded := hclaim _ _ (.trust "h" 22 "B" none) _ _ hreach rfl "h" 22 false rfl
  have heq := hrecorded ⟨"h", 22, true⟩ (by simp [learnKnownHost]) rfl rfl
  cases heq

end Portix.Ssh
