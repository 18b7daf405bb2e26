import Mathlib.Data.List.Forall2
import Portix.Connection.Credentials

/-!
# Jump chains are resolved faithfully

The chain of a profile is the path of its jump references through the saved profiles; its hops keep
their own fields and get their own secrets.
-/

namespace Portix.Connection

open Lib

/-- A path of jump references through the saved profiles, up to a profile without one. -/
inductive JumpPath (saved : List Profiles.SshProfile) :
    Option String → List Profiles.SshProfile → Prop where
  | direct : JumpPath saved none []
  | through {jumpId : String} {jump : Profiles.SshProfile} {rest : List Profiles.SshProfile}
      (found : (saved.find? fun profile => profile.id = jumpId) = some jump)
      (onward : JumpPath saved (Hop.fromDomain jump).jumpProfileId rest) :
      JumpPath saved (some jumpId) (jump :: rest)

def FollowsJumps (saved : List Profiles.SshProfile) (target : SshProfile)
    (path : List Profiles.SshProfile) : Prop :=
  JumpPath saved target.hop.jumpProfileId path ∧
    (target.hop.id :: path.map fun profile => profile.id).Nodup

variable {saved : List Profiles.SshProfile} {name : String}

abbrev chainIds (chain : List SshProfile) : List String := chain.map fun link => link.hop.id

theorem chainIds_cons (jump : Profiles.SshProfile) (chain : List SshProfile) :
    chainIds (.fromDomain jump :: chain) = jump.id :: chainIds chain := rfl

variable {chain : List SshProfile}

theorem any_id_iff {id : String} : (chain.any fun link => link.hop.id == id) = true ↔ id ∈ chainIds chain := by
  simp only [List.any_eq_true, List.mem_map, beq_iff_eq]

theorem path_of_extendChain {jumpId : Option String}
    {full : List SshProfile} (h : extendChain saved name chain jumpId = .ok full) :
    ∃ path, JumpPath saved jumpId path ∧ (path.map fun profile => profile.id).Nodup ∧
      (∀ profile ∈ path, profile.id ∉ chainIds chain) ∧
      full = (path.map SshProfile.fromDomain).reverse ++ chain := by
  fun_induction extendChain saved name chain jumpId with
  | case1 chain =>
    cases h
    exact ⟨[], .direct, List.nodup_nil, by simp, rfl⟩
  | case2 chain jumpId hfound => cases h
  | case3 chain jumpId jump hfound hloop => cases h
  | case4 chain jumpId jump hfound hloop ih =>
    obtain ⟨path, hpath, hnodup, hnew, rfl⟩ := ih h
    have hjump : jump.id ∉ chainIds chain := fun hmem => hloop (any_id_iff.mpr hmem)
    refine ⟨jump :: path, .through hfound hpath, ?_, ?_, ?_⟩
    · rw [List.map_cons, List.nodup_cons]
      refine ⟨?_, hnodup⟩
      intro hmem
      obtain ⟨profile, hprofile, hid⟩ := List.mem_map.mp hmem
      apply hnew profile hprofile
      rw [chainIds_cons, hid]
      exact List.mem_cons_self ..
    · intro profile hprofile
      rcases List.mem_cons.mp hprofile with rfl | hrest
      · exact hjump
      · intro hmem
        apply hnew profile hrest
        rw [chainIds_cons]
        exact List.mem_cons_of_mem _ hmem
    · simp

theorem extendChain_of_path {jumpId : Option String} {path : List Profiles.SshProfile}
    (hpath : JumpPath saved jumpId path) : ∀ {chain : List SshProfile},
    (path.map fun profile => profile.id).Nodup →
    (∀ profile ∈ path, profile.id ∉ chainIds chain) →
    extendChain saved name chain jumpId = .ok ((path.map SshProfile.fromDomain).reverse ++ chain) := by
  induction hpath with
  | direct =>
    intro chain _ _
    rw [extendChain]
    rfl
  | @through jumpId jump rest found onward ih =>
    intro chain hnodup hnew
    rw [List.map_cons, List.nodup_cons] at hnodup
    have hloop : ¬(chain.any fun link => link.hop.id == jump.id) = true :=
      fun h => hnew jump (List.mem_cons_self ..) (any_id_iff.mp h)
    have hrest : ∀ profile ∈ rest, profile.id ∉ chainIds (.fromDomain jump :: chain) := by
      intro profile hprofile
      rw [chainIds_cons, List.mem_cons, not_or]
      refine ⟨?_, hnew profile (List.mem_cons_of_mem _ hprofile)⟩
      intro hid
      exact hnodup.1 (List.mem_map.mpr ⟨profile, hprofile, hid⟩)
    have hext := ih hnodup.2 hrest
    rw [extendChain]
    split
    case h_1 hnone => rw [found] at hnone; cases hnone
    case h_2 jump' hsome =>
      rw [found] at hsome
      cases hsome
      rw [dif_neg hloop, hext]
      simp

theorem connectionChain_ok_iff {target : SshProfile} : connectionChain saved target = .ok chain ↔
      ∃ path, FollowsJumps saved target path ∧ chain = (path.map SshProfile.fromDomain).reverse ++ [target] := by
  have hids : chainIds [target] = [target.hop.id] := rfl
  constructor
  · intro h
    obtain ⟨path, hpath, hnodup, hnew, rfl⟩ := path_of_extendChain h
    refine ⟨path, ⟨hpath, ?_⟩, rfl⟩
    rw [List.nodup_cons]
    refine ⟨?_, hnodup⟩
    intro hmem
    obtain ⟨profile, hprofile, hid⟩ := List.mem_map.mp hmem
    apply hnew profile hprofile
    rw [hids, hid]
    exact List.mem_cons_self ..
  · rintro ⟨path, ⟨hpath, hnodup⟩, rfl⟩
    rw [List.nodup_cons] at hnodup
    apply extendChain_of_path hpath hnodup.2
    intro profile hprofile hmem
    rw [hids, List.mem_singleton] at hmem
    exact hnodup.1 (List.mem_map.mpr ⟨profile, hprofile, hmem⟩)

namespace ProfileCredentials

variable (credentials : ProfileCredentials)

/-- A hop with its secrets: its own fields, and a password and a passphrase that were in it or are
stored under its own id. -/
def OwnSecrets (profile resolved : Hop) : Prop :=
  { resolved with password := profile.password, keyPassphrase := profile.keyPassphrase } = profile ∧
    (resolved.password = profile.password ∨ ∃ secret,
      credentials.readPassword profile.id = .ok (some secret) ∧ resolved.password = some secret) ∧
    (resolved.keyPassphrase = profile.keyPassphrase ∨ ∃ secret,
      credentials.readPassword profile.id = .ok (some secret) ∧ resolved.keyPassphrase = some secret)

theorem ownSecrets_self (profile : Hop) : credentials.OwnSecrets profile profile :=
  ⟨rfl, .inl rfl, .inl rfl⟩

theorem ownSecrets_of_withSecret {profile resolved : Hop} {reads : List String}
    (h : credentials.withSecret profile = (reads, .ok resolved)) :
    credentials.OwnSecrets profile resolved := by
  have hself : ∀ {reads' : List String},
      ((reads', .ok profile) : Reading Hop) = (reads, .ok resolved) →
      credentials.OwnSecrets profile resolved := by
    intro reads' heq
    obtain rfl := Except.ok.inj (Prod.mk.inj heq).2
    exact credentials.ownSecrets_self profile
  unfold withSecret at h
  by_cases hkey : dartTrim (profile.privateKeyPath.getD "") ≠ ""
  · rw [if_pos hkey] at h
    by_cases hmarked : profile.id ∉ credentials.keyPassphraseProfiles
    · rw [if_pos hmarked] at h
      exact hself h
    · rw [if_neg hmarked] at h
      split at h
      case h_1 passphrase hread =>
        by_cases hempty : passphrase = ""
        · rw [if_pos hempty] at h
          exact hself h
        · rw [if_neg hempty] at h
          obtain rfl := Except.ok.inj (Prod.mk.inj h).2
          exact ⟨rfl, .inl rfl, .inr ⟨passphrase, hread, rfl⟩⟩
      case h_2 => exact hself h
      case h_3 => exact hself h
  · rw [if_neg hkey] at h
    by_cases htyped : dartTrim (profile.password.getD "") ≠ ""
    · rw [if_pos htyped] at h
      exact hself h
    · rw [if_neg htyped] at h
      by_cases hpassword : profile.hasPassword = false
      · rw [if_pos hpassword] at h
        exact hself h
      · rw [if_neg hpassword] at h
        split at h
        case h_1 => cases (Prod.mk.inj h).2
        case h_2 password hread =>
          by_cases hempty : password.getD "" = ""
          · rw [if_pos hempty] at h
            cases (Prod.mk.inj h).2
          · rw [if_neg hempty] at h
            obtain rfl := Except.ok.inj (Prod.mk.inj h).2
            cases password with
            | none => exact absurd rfl hempty
            | some secret => exact ⟨rfl, .inr ⟨secret, hread, rfl⟩, .inl rfl⟩

def hopsOf : Option SshProfile → List Hop
  | none => []
  | some profile => profile.hops

theorem hops_mk (hop : Hop) (jumpHost : Option SshProfile) :
    (SshProfile.mk hop jumpHost).hops = hop :: hopsOf jumpHost := by
  cases jumpHost <;> rfl

theorem hops_of_resolveHops (links : List SshProfile) : ∀ {resolved result : Option SshProfile}
    {reads : List String}, (∀ link ∈ links.head?, resolved = none → link.jumpHost = none) →
    credentials.resolveHops resolved links = (reads, .ok result) →
    ∃ hops, List.Forall₂ credentials.OwnSecrets (links.map SshProfile.hop) hops ∧
      hopsOf result = hops.reverse ++ hopsOf resolved := by
  induction links with
  | nil =>
    intro resolved result reads _ h
    obtain rfl := Except.ok.inj (Prod.mk.inj h).2
    exact ⟨[], .nil, rfl⟩
  | cons link rest ih =>
    intro resolved result reads hfirst h
    unfold resolveHops at h
    split at h
    case h_1 => cases (Prod.mk.inj h).2
    case h_2 reads₁ hop hsecret =>
      have hrest : credentials.resolveHops (some (.mk hop (resolved.or link.jumpHost))) rest =
          ((credentials.resolveHops (some (.mk hop (resolved.or link.jumpHost))) rest).1, .ok result) :=
        Prod.ext rfl (Prod.mk.inj h).2
      obtain ⟨hops, hown, hhops⟩ := ih (by intro next _ hnone; cases hnone) hrest
      have hbelow : resolved.or link.jumpHost = resolved := by
        cases resolved with
        | none => exact hfirst link rfl rfl
        | some _ => rfl
      refine ⟨hop :: hops, .cons (credentials.ownSecrets_of_withSecret hsecret) hown, ?_⟩
      rw [hhops, hbelow]
      show hops.reverse ++ (SshProfile.mk hop resolved).hops = _
      rw [hops_mk, List.reverse_cons, List.append_assoc]
      rfl

end ProfileCredentials

theorem getLast?_hops : ∀ profile : SshProfile, profile.hops.getLast? = some profile.entryPoint.hop
  | .mk hop none => rfl
  | .mk hop (some jumpHost) => by
    have hlast := getLast?_hops jumpHost
    rw [SshProfile.hops, SshProfile.entryPoint, List.getLast?_cons, hlast]
    rfl

theorem hops_of_resolve {credentials : ProfileCredentials} {target : SshProfile}
    {path : List Profiles.SshProfile} {last : Option SshProfile} {reads : List String}
    (hdirect : path = [] → target.jumpHost = none)
    (h : credentials.resolveHops none ((path.map SshProfile.fromDomain).reverse ++ [target]) =
      (reads, .ok last)) :
    ∃ result, last = some result ∧
      List.Forall₂ credentials.OwnSecrets (target.hop :: path.map Hop.fromDomain) result.hops := by
  have hfirst : ∀ link ∈ ((path.map SshProfile.fromDomain).reverse ++ [target]).head?,
      (none : Option SshProfile) = none → link.jumpHost = none := by
    intro link hlink _
    by_cases hpath : path = []
    · subst hpath
      obtain rfl : target = link := by simpa using hlink
      exact hdirect rfl
    · have hne : (path.map SshProfile.fromDomain).reverse ≠ [] := by simpa using hpath
      rw [List.head?_append_of_ne_nil _ hne] at hlink
      have hmem : link ∈ (path.map SshProfile.fromDomain).reverse := List.mem_of_mem_head? hlink
      obtain ⟨profile, -, rfl⟩ := List.mem_map.mp (List.mem_reverse.mp hmem)
      rfl
  obtain ⟨hops, hown, hhops⟩ := credentials.hops_of_resolveHops _ hfirst h
  have hown' : List.Forall₂ credentials.OwnSecrets (target.hop :: path.map Hop.fromDomain) hops.reverse := by
    have hrev := List.forall₂_reverse_iff.mpr hown
    have hchain : (((path.map SshProfile.fromDomain).reverse ++ [target]).map SshProfile.hop).reverse =
        target.hop :: path.map Hop.fromDomain := by
      simp only [List.map_append, List.map_reverse, List.map_map, List.reverse_append,
        List.reverse_reverse, List.map_cons, List.map_nil, List.reverse_cons, List.reverse_nil,
        List.nil_append, List.cons_append, List.cons.injEq, true_and]
      rfl
    rwa [hchain] at hrev
  have hlast : ProfileCredentials.hopsOf last = hops.reverse := by
    rw [hhops]
    exact List.append_nil _
  cases last with
  | none =>
    rw [← hlast] at hown'
    cases hown'
  | some result =>
    refine ⟨result, rfl, ?_⟩
    rw [← hlast] at hown'
    exact hown'

theorem hops_of_resolve_ok {credentials : ProfileCredentials} {target result : SshProfile}
    (hdirect : target.hop.jumpProfileId = none → target.jumpHost = none)
    (h : (credentials.resolve saved target).2 = .ok result) :
    ∃ path, FollowsJumps saved target path ∧
      List.Forall₂ credentials.OwnSecrets (target.hop :: path.map Hop.fromDomain) result.hops := by
  unfold ProfileCredentials.resolve at h
  cases hchain : connectionChain saved target with
  | error error => simp only [hchain] at h; cases h
  | ok chain =>
    simp only [hchain] at h
    obtain ⟨path, hpath, rfl⟩ := connectionChain_ok_iff.mp hchain
    cases hhops : credentials.resolveHops none ((path.map SshProfile.fromDomain).reverse ++ [target]) with
    | mk reads outcome =>
      rw [hhops] at h
      cases outcome with
      | error error => cases h
      | ok last =>
        have hempty : path = [] → target.jumpHost = none := by
          rintro rfl
          have hjump := hpath.1
          generalize target.hop.jumpProfileId = jumpId at hjump hdirect
          cases hjump
          exact hdirect rfl
        obtain ⟨resolved, rfl, hown⟩ := hops_of_resolve hempty hhops
        cases h
        exact ⟨path, hpath, hown⟩

/-- A profile of the app that names no jump host has none: saved ones have none yet, and `resolve` gives one only to
a profile that names it. -/
theorem jumpHost_eq_none (profile : Profiles.SshProfile) {credentials : ProfileCredentials} {target result : SshProfile}
    (hdirect : target.hop.jumpProfileId = none → target.jumpHost = none)
    (h : (credentials.resolve saved target).2 = .ok result) :
    (SshProfile.fromDomain profile).jumpHost = none ∧
      (result.hop.jumpProfileId = none → result.jumpHost = none) := by
  refine ⟨rfl, fun hnone => ?_⟩
  obtain ⟨path, ⟨hpath, -⟩, hown⟩ := hops_of_resolve_ok hdirect h
  obtain ⟨hop, _ | jumpHost⟩ := result
  · rfl
  · obtain ⟨hfirst, hrest⟩ := List.forall₂_cons.mp hown
    have hnone' : target.hop.jumpProfileId = none := (congrArg Hop.jumpProfileId hfirst.1).symm.trans hnone
    rw [hnone'] at hpath
    cases hpath
    have hlast := getLast?_hops jumpHost
    rw [List.forall₂_nil_left_iff.mp hrest] at hlast
    cases hlast

/-- A target that names no jump host has none yet: only `resolve` fills one in. -/
theorem resolve_follows_jumps (credentials : ProfileCredentials) (saved : List Profiles.SshProfile)
    (target : SshProfile) (hdirect : target.hop.jumpProfileId = none → target.jumpHost = none) :
    (∀ result, (credentials.resolve saved target).2 = .ok result →
      ∃ path, FollowsJumps saved target path ∧
        List.Forall₂ credentials.OwnSecrets (target.hop :: path.map Hop.fromDomain) result.hops ∧
        result.hops.getLast? = some result.entryPoint.hop) ∧
    ((¬∃ path, FollowsJumps saved target path) →
      ∃ error, credentials.resolve saved target = ([], .error error)) := by
  constructor
  · intro result h
    obtain ⟨path, hpath, hown⟩ := hops_of_resolve_ok hdirect h
    exact ⟨path, hpath, hown, getLast?_hops result⟩
  · intro hnone
    unfold ProfileCredentials.resolve
    cases hchain : connectionChain saved target with
    | error error => exact ⟨error, rfl⟩
    | ok chain =>
      obtain ⟨path, hpath, -⟩ := connectionChain_ok_iff.mp hchain
      exact absurd ⟨path, hpath⟩ hnone

/-- A saved profile that is reached through another one, with a stored password. -/
def savedProfile (id jump : String) : Profiles.SshProfile where
  id := id
  name := id
  host := id
  port := 22
  username := "u"
  group := "g"
  tags := []
  authMethod := .password
  credentialLabel := "Saved password"
  defaultPath := "~"
  status := .offline
  color := .cyan
  jumpProfileId := jump

def anyPassword : ProfileCredentials := ⟨fun id => .ok (some ("pw-" ++ id)), []⟩

/-- Two jump hosts, each with a password of its own. -/
theorem resolve_follows_jumps_twice : ∃ (result : SshProfile) (path : List Profiles.SshProfile),
    (anyPassword.resolve [savedProfile "b" "c", savedProfile "c" ""] (.fromDomain (savedProfile "a" "b"))).2 =
      .ok result ∧
    FollowsJumps [savedProfile "b" "c", savedProfile "c" ""] (.fromDomain (savedProfile "a" "b")) path ∧
    List.Forall₂ anyPassword.OwnSecrets
      (Hop.fromDomain (savedProfile "a" "b") :: path.map Hop.fromDomain) result.hops ∧
    result.hops.getLast? = some result.entryPoint.hop := by
  have hok : (anyPassword.resolve [savedProfile "b" "c", savedProfile "c" ""]
      (.fromDomain (savedProfile "a" "b"))).2.toOption.isSome = true := by
    decide +kernel
  have hright := resolve_follows_jumps anyPassword [savedProfile "b" "c", savedProfile "c" ""]
    (.fromDomain (savedProfile "a" "b")) (fun _ => rfl)
  cases hout : (anyPassword.resolve [savedProfile "b" "c", savedProfile "c" ""]
      (.fromDomain (savedProfile "a" "b"))).2 with
  | error error => rw [hout] at hok; cases hok
  | ok result =>
    obtain ⟨path, hpath⟩ := hright.1 result hout
    exact ⟨result, path, rfl, hpath⟩

end Portix.Connection
