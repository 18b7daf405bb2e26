import Portix.Forward.Socks5

/-!
# Proofs: the SOCKS5 handshake

Every CONNECT request after a greeting is read back, and nothing else is accepted; but neither the version
of a request nor the length of a domain is looked at.
-/

namespace Portix.Forward

open Lib StreamM

variable {bytes rest rest' : List UInt8}

theorem toNat_ofNat_length (h : bytes.length ≤ 255) : (UInt8.ofNat bytes.length).toNat = bytes.length := by
  rw [UInt8.toNat_ofNat']
  omega

theorem fromBeBytes_toBeBytes (port : UInt16) : fromBeBytes (toBeBytes port) = port := by
  have hlt := port.toNat_lt
  rw [← UInt16.toNat_inj]
  simp only [fromBeBytes, toBeBytes, List.getD_cons_zero, List.getD_cons_succ, UInt8.toNat_ofNat', UInt16.toNat_ofNat']
  omega

theorem toBeBytes_fromBeBytes (hi lo : UInt8) : toBeBytes (fromBeBytes [hi, lo]) = [hi, lo] := by
  have hhi := hi.toNat_lt
  have hlo := lo.toNat_lt
  simp only [fromBeBytes, toBeBytes, List.getD_cons_zero, List.getD_cons_succ, UInt16.toNat_ofNat', List.cons.injEq,
    and_true, ← UInt8.toNat_inj, UInt8.toNat_ofNat']
  omega

theorem utf8_of_ofUtf8 {text : String} (h : ofUtf8 bytes = some text) : utf8 text = bytes := by
  unfold ofUtf8 String.fromUTF8? at h
  split at h
  case isTrue hvalid =>
    cases h
    change bytes.toArray.toList = bytes
    rfl
  case isFalse => cases h

theorem socks5Host_encode (address : Address) {addressType : UInt8} {body : List UInt8}
    (h : address.encode = addressType :: body) (rest written : List UInt8) (f : String → StreamM (String × UInt16)) :
    (socks5Host addressType >>= f) ⟨body ++ rest, written⟩ = f address.host ⟨rest, written⟩ := by
  unfold socks5Host
  cases address with
  | ipv4 octets length =>
    cases h
    rw [if_pos rfl, StreamM.bind_assoc, readExact_bind_append length]
    rfl
  | domain name =>
    cases h
    rw [if_neg (by decide), if_pos rfl, StreamM.bind_assoc, ← List.singleton_append, List.append_assoc,
      readExact_bind_append (by rfl), StreamM.bind_assoc, firstByte, List.headD_cons,
      readExact_bind_append (toNat_ofNat_length name.length_le).symm, ofUtf8_utf8]
    rfl
  | ipv6 octets length =>
    cases h
    rw [if_neg (by decide), if_neg (by decide), if_pos rfl, StreamM.bind_assoc, readExact_bind_append length]
    rfl

theorem encode_eq_cons (address : Address) : ∃ addressType body, address.encode = addressType :: body := by
  cases address with
  | ipv4 octets length => exact ⟨_, _, rfl⟩
  | domain name => exact ⟨_, _, rfl⟩
  | ipv6 octets length => exact ⟨_, _, rfl⟩

theorem socks5Connect_encode (request : ConnectRequest) (rest written : List UInt8) :
    socks5Connect ⟨request.encode ++ rest, written⟩ =
      (.ok (request.address.host, request.port), ⟨rest, written⟩) := by
  obtain ⟨addressType, body, haddress⟩ := encode_eq_cons request.address
  have hstart : request.encode ++ rest =
      [request.version, 1, request.reserved, addressType] ++ (body ++ (toBeBytes request.port ++ rest)) := by
    simp [ConnectRequest.encode, haddress]
  unfold socks5Connect
  rw [hstart, readExact_bind_append (by rfl), if_neg (by simp)]
  have htype : [request.version, 1, request.reserved, addressType].getD 3 0 = addressType := rfl
  rw [htype, socks5Host_encode _ haddress, readExact_bind_append (by rfl), fromBeBytes_toBeBytes]
  rfl

theorem socks5Request_encode (methods : Methods) (request : ConnectRequest) (rest written : List UInt8) :
    socks5Request ⟨methods.encode ++ request.encode ++ rest, written⟩ =
      (.ok (request.address.host, request.port), ⟨rest, written ++ [5, 0]⟩) := by
  unfold socks5Request
  have hstart : methods.encode ++ request.encode ++ rest =
      [5, UInt8.ofNat methods.list.length] ++ (methods.list ++ (request.encode ++ rest)) := by
    simp [Methods.encode]
  rw [hstart, readExact_bind_append (by rfl), List.getD_cons_zero, List.getD_cons_succ, List.getD_cons_zero]
  rw [if_neg (by simp), readExact_bind_append (toNat_ofNat_length methods.length_le).symm,
    if_neg (by simpa using methods.noAuthentication), writeAll_bind]
  exact socks5Connect_encode _ _ _

/-- A computation fails having written nothing, or one failure reply. -/
def Refuses {α : Type} (m : StreamM α) (s : ByteStream) : Prop :=
  ∃ e, (m s).1 = .error e ∧
    ((m s).2.written = s.written ∨
      ∃ code, code ≠ socksSucceeded ∧ (m s).2.written = s.written ++ replyBytes code)

theorem refuses_readExact {α : Type} {n : Nat} {f : List UInt8 → StreamM α} {s : ByteStream} {P : Prop}
    (hread : ∀ bytes rest, bytes.length = n → s.input = bytes ++ rest →
      P ∨ Refuses (f bytes) { s with input := rest }) : P ∨ Refuses (readExact n >>= f) s := by
  unfold Refuses at hread ⊢
  refine readExact_rule (Q := fun r => P ∨ ∃ e, r.1 = .error e ∧ (r.2.written = s.written ∨
    ∃ code, code ≠ socksSucceeded ∧ r.2.written = s.written ++ replyBytes code)) ?_ hread
  exact .inr ⟨_, rfl, .inl rfl⟩

theorem socks5Host_cases (addressType : UInt8) (s : ByteStream) (f : String → StreamM (String × UInt16)) :
    (∃ (address : Address) (body rest : List UInt8), address.encode = addressType :: body ∧
      s.input = body ++ rest) ∨ Refuses (socks5Host addressType >>= f) s := by
  unfold socks5Host
  by_cases hipv4 : addressType = 1
  · subst hipv4
    rw [if_pos rfl, StreamM.bind_assoc]
    exact refuses_readExact fun octets rest hlen hinput =>
      .inl ⟨.ipv4 octets hlen, octets, rest, rfl, hinput⟩
  rw [if_neg hipv4]
  by_cases hdomain : addressType = 3
  · subst hdomain
    rw [if_pos rfl, StreamM.bind_assoc]
    refine refuses_readExact fun len rest hlen hinput => ?_
    obtain ⟨l, rfl⟩ := List.length_eq_one_iff.mp hlen
    rw [StreamM.bind_assoc, firstByte, List.headD_cons]
    refine refuses_readExact fun name rest' hname hinput' => ?_
    cases htext : ofUtf8 name with
    | none => exact .inr ⟨_, rfl, .inl rfl⟩
    | some text =>
      have hutf8 := utf8_of_ofUtf8 htext
      have hl := l.toNat_lt
      have hle : (utf8 text).length ≤ 255 := by
        rw [hutf8, hname]
        omega
      refine .inl ⟨.domain ⟨text, hle⟩, l :: name, rest', ?_, ?_⟩
      · rw [Address.encode, hutf8, hname, UInt8.ofNat_toNat]
      · rw [hinput, List.singleton_append, List.cons_append]
        exact congrArg (List.cons l) hinput'
  rw [if_neg hdomain]
  by_cases hipv6 : addressType = 4
  · subst hipv6
    rw [if_pos rfl, StreamM.bind_assoc]
    exact refuses_readExact fun octets rest hlen hinput =>
      .inl ⟨.ipv6 octets hlen, octets, rest, rfl, hinput⟩
  · rw [if_neg hipv6]
    exact .inr ⟨_, rfl, .inr ⟨socksAddressNotSupported, by decide, rfl⟩⟩

theorem socks5Connect_cases (s : ByteStream) :
    (∃ (request : ConnectRequest) (rest : List UInt8), s.input = request.encode ++ rest) ∨ Refuses socks5Connect s := by
  unfold socks5Connect
  refine refuses_readExact fun head rest hlen hinput => ?_
  obtain ⟨version, command, reserved, addressType, rfl⟩ : ∃ a b c d, head = [a, b, c, d] := by
    match head, hlen with
    | [a, b, c, d], _ => exact ⟨a, b, c, d, rfl⟩
  have hcommand : [version, command, reserved, addressType].getD 1 0 = command := rfl
  have htype : [version, command, reserved, addressType].getD 3 0 = addressType := rfl
  rw [hcommand, htype]
  by_cases hconnect : command = 1
  · subst hconnect
    rw [if_neg (by simp)]
    rcases socks5Host_cases addressType { s with input := rest } fun host => do
        let port ← readExact 2
        pure (host, fromBeBytes port) with ⟨address, body, rest', haddress, hbody⟩ | hrefuses
    · have hbody' : rest = body ++ rest' := hbody
      subst hbody'
      have hport : (∃ (request : ConnectRequest) (rest : List UInt8), s.input = request.encode ++ rest) ∨
          Refuses (readExact 2 >>= fun port => pure (address.host, fromBeBytes port)) { s with input := rest' } := by
        refine refuses_readExact fun port rest'' hlen' hinput' => ?_
        obtain ⟨hi, lo, rfl⟩ : ∃ hi lo, port = [hi, lo] := by
          match port, hlen' with
          | [hi, lo], _ => exact ⟨hi, lo, rfl⟩
        refine .inl ⟨⟨version, reserved, address, fromBeBytes [hi, lo]⟩, rest'', ?_⟩
        have hrest : rest' = [hi, lo] ++ rest'' := hinput'
        rw [hinput, ConnectRequest.encode, haddress, toBeBytes_fromBeBytes, hrest]
        simp
      refine hport.imp_right fun h => ?_
      unfold Refuses at h ⊢
      rw [socks5Host_encode address haddress]
      exact h
    · exact .inr hrefuses
  · rw [if_pos hconnect]
    exact .inr ⟨_, rfl, .inr ⟨socksCommandNotSupported, by decide, rfl⟩⟩

/-- A greeting and a CONNECT request are there, or the handshake fails with at most one method selection and one
failure reply. -/
theorem socks5Request_cases (input : List UInt8) :
    (∃ (methods : Methods) (request : ConnectRequest) (rest : List UInt8),
      input = methods.encode ++ request.encode ++ rest) ∨
    ∃ e, (socks5Request ⟨input, []⟩).1 = .error e ∧ RefusalBytes (socks5Request ⟨input, []⟩).2.written := by
  unfold socks5Request
  refine readExact_rule (Q := fun r => (∃ (methods : Methods) (request : ConnectRequest) (rest : List UInt8),
      input = methods.encode ++ request.encode ++ rest) ∨ ∃ e, r.1 = .error e ∧ RefusalBytes r.2.written)
    (.inr ⟨_, rfl, .inl rfl⟩) fun greeting afterHead hlen hinput => ?_
  obtain ⟨version, count, rfl⟩ : ∃ version count, greeting = [version, count] := by
    match greeting, hlen with
    | [a, b], _ => exact ⟨a, b, rfl⟩
  rw [List.getD_cons_zero, List.getD_cons_succ, List.getD_cons_zero]
  by_cases hversion : version = 5
  case neg =>
    rw [if_pos hversion]
    exact .inr ⟨_, rfl, .inl rfl⟩
  subst hversion
  rw [if_neg (by simp)]
  refine readExact_rule (Q := fun r => (∃ (methods : Methods) (request : ConnectRequest) (rest : List UInt8),
      input = methods.encode ++ request.encode ++ rest) ∨ ∃ e, r.1 = .error e ∧ RefusalBytes r.2.written)
    (.inr ⟨_, rfl, .inl rfl⟩) fun list afterGreeting hlist hmethods => ?_
  by_cases hnone : (0 : UInt8) ∈ list
  case neg =>
    rw [if_pos hnone]
    exact .inr ⟨_, rfl, .inr (.inl rfl)⟩
  rw [if_neg (by simpa using hnone), writeAll_bind]
  have hcount := count.toNat_lt
  have hmethods' : afterHead = list ++ afterGreeting := hmethods
  rcases socks5Connect_cases ⟨afterGreeting, [5, 0]⟩ with ⟨request, rest, hrequest⟩ | ⟨e, he, hwritten⟩
  · refine .inl ⟨⟨list, by omega, hnone⟩, request, rest, ?_⟩
    have hrequest' : afterGreeting = request.encode ++ rest := hrequest
    have hinput' : input = [5, count] ++ afterHead := hinput
    have hencode : Methods.encode ⟨list, by omega, hnone⟩ = [5, count] ++ list := by
      change [5, UInt8.ofNat list.length] ++ list = _
      rw [hlist, UInt8.ofNat_toNat]
    rw [hinput', hmethods', hrequest', hencode]
    simp only [List.append_assoc]
  · refine .inr ⟨e, he, ?_⟩
    rcases hwritten with hwritten | ⟨code, hcode, hwritten⟩
    · exact .inr (.inr (.inl hwritten))
    · exact .inr (.inr (.inr ⟨code, hcode, hwritten⟩))

theorem methods_encode_append_inj {methods methods' : Methods}
    (h : methods.encode ++ rest = methods'.encode ++ rest') : rest = rest' := by
  simp only [Methods.encode, List.cons_append, List.cons.injEq, true_and] at h
  have hlen := congrArg UInt8.toNat h.1
  rw [toNat_ofNat_length methods.length_le, toNat_ofNat_length methods'.length_le] at hlen
  exact (List.append_inj h.2 hlen).2

theorem wellFormed_of_encode_append {request request' : ConnectRequest}
    (h : request.encode ++ rest = request'.encode ++ rest') (hwell : request.WellFormed) : request'.WellFormed := by
  simp only [ConnectRequest.encode, List.cons_append, List.nil_append, List.append_assoc, List.cons.injEq,
    true_and] at h
  obtain ⟨hversion, -, haddress⟩ := h
  refine ⟨hversion.symm.trans hwell.1, fun name' hname' hempty => ?_⟩
  rw [hname', Address.encode, hempty] at haddress
  cases hcase : request.address with
  | ipv4 octets length =>
    rw [hcase] at haddress
    exact absurd (List.cons.inj haddress).1 (by decide)
  | ipv6 octets length =>
    rw [hcase] at haddress
    exact absurd (List.cons.inj haddress).1 (by decide)
  | domain name =>
    rw [hcase] at haddress
    have hlen := congrArg UInt8.toNat (List.cons.inj (List.cons.inj haddress).2).1
    rw [toNat_ofNat_length name.length_le] at hlen
    exact hwell.2 name hcase (String.utf8ByteSize_eq_zero_iff.mp hlen)

/-- The handshake of a client that sends `input` is as RFC 1928 has it: a well-formed greeting and request are
accepted, as what they encode and with nothing after them read, and everything else is refused. -/
def FollowsRfc (input : List UInt8) : Prop :=
  (∀ (methods : Methods) (request : ConnectRequest) (rest : List UInt8), request.WellFormed →
    input = methods.encode ++ request.encode ++ rest →
      socks5Request ⟨input, []⟩ = (.ok (request.address.host, request.port), ⟨rest, [5, 0]⟩)) ∧
  ((¬ ∃ (methods : Methods) (request : ConnectRequest) (rest : List UInt8), request.WellFormed ∧
    input = methods.encode ++ request.encode ++ rest) →
      ∃ e, (socks5Request ⟨input, []⟩).1 = .error e ∧ RefusalBytes (socks5Request ⟨input, []⟩).2.written)

theorem not_followsRfc {methods : Methods} {request : ConnectRequest} (hill : ¬ request.WellFormed)
    (rest : List UInt8) : ¬ FollowsRfc (methods.encode ++ request.encode ++ rest) := by
  rintro ⟨-, hrefuses⟩
  have hnone : ¬ ∃ (methods' : Methods) (request' : ConnectRequest) (rest' : List UInt8), request'.WellFormed ∧
      methods.encode ++ request.encode ++ rest = methods'.encode ++ request'.encode ++ rest' := by
    rintro ⟨methods', request', rest', hwell, heq⟩
    rw [List.append_assoc, List.append_assoc] at heq
    exact hill (wellFormed_of_encode_append (methods_encode_append_inj heq).symm hwell)
  obtain ⟨e, he, -⟩ := hrefuses hnone
  rw [socks5Request_encode] at he
  cases he

/-- The handshake is as RFC 1928 has it exactly when the client does not send, after a greeting, a CONNECT request
with another version or an empty domain. -/
theorem followsRfc_iff (input : List UInt8) :
    FollowsRfc input ↔ ¬ ∃ (methods : Methods) (request : ConnectRequest) (rest : List UInt8),
      ¬ request.WellFormed ∧ input = methods.encode ++ request.encode ++ rest := by
  constructor
  · rintro hfollows ⟨methods, request, rest, hill, rfl⟩
    exact not_followsRfc hill rest hfollows
  · intro hlenient
    refine ⟨fun methods request rest _ hinput => ?_, fun hnone => ?_⟩
    · rw [hinput, socks5Request_encode]
      rfl
    · rcases socks5Request_cases input with ⟨methods, request, rest, hinput⟩ | hrefused
      · by_cases hwell : request.WellFormed
        · exact absurd ⟨methods, request, rest, hwell, hinput⟩ hnone
        · exact absurd ⟨methods, request, rest, hwell, hinput⟩ hlenient
      · exact hrefused

def noAuthentication : Methods := ⟨[0], by decide, by decide⟩

def oldRequest : ConnectRequest := ⟨4, 0, .ipv4 [10, 0, 0, 5] rfl, 5432⟩

def emptyRequest : ConnectRequest := ⟨5, 0, .domain ⟨"", by decide⟩, 80⟩

/-- A request with version 4 is accepted, and so is an empty domain. -/
theorem socks5Request_lenient :
    socks5Request ⟨[5, 1, 0, 4, 1, 0, 1, 10, 0, 0, 5, 0x15, 0x38], []⟩ = (.ok ("10.0.0.5", 5432), ⟨[], [5, 0]⟩) ∧
      ¬ FollowsRfc [5, 1, 0, 4, 1, 0, 1, 10, 0, 0, 5, 0x15, 0x38] ∧
      socks5Request ⟨[5, 1, 0, 5, 1, 0, 3, 0, 0, 80], []⟩ = (.ok ("", 80), ⟨[], [5, 0]⟩) ∧
      ¬ FollowsRfc [5, 1, 0, 5, 1, 0, 3, 0, 0, 80] := by
  have hold : [5, 1, 0, 4, 1, 0, 1, 10, 0, 0, 5, 0x15, 0x38] = noAuthentication.encode ++ oldRequest.encode ++ [] := by
    decide
  have hempty : [5, 1, 0, 5, 1, 0, 3, 0, 0, 80] = noAuthentication.encode ++ emptyRequest.encode ++ [] := by
    decide
  have hhost : oldRequest.address.host = "10.0.0.5" := by decide
  rw [hold, hempty, socks5Request_encode, socks5Request_encode, hhost]
  refine ⟨rfl, not_followsRfc (fun h => ?_) [], rfl, not_followsRfc (fun h => ?_) []⟩
  · exact absurd h.1 (by decide)
  · exact h.2 _ rfl rfl

example : ipv4Text [10, 0, 0, 5] = "10.0.0.5" := by decide

example : ipv6Text (List.replicate 15 0 ++ [1]) = "::1" := by decide

end Portix.Forward
