import Portix.Lib.ByteStream
import Portix.Lib.Persist

/-!
# The SOCKS5 handshake

`socks5_request` and `socks5_reply` of `port_forward.rs`, on the bytes that a client sends, and what RFC 1928
asks of a greeting and a CONNECT request.
-/

namespace Portix.Forward

open Lib StreamM

def ipv4Text (octets : List UInt8) : String := ".".intercalate (octets.map fun octet => toString octet.toNat)

def segments : List UInt8 → List Nat
  | hi :: lo :: rest => (hi.toNat * 256 + lo.toNat) :: segments rest
  | _ => []

structure Span where
  start : Nat := 0
  len : Nat := 0

/-- The loop over the segments that looks for the longest run of zeros, the first of equal ones. -/
def longestZeros : List Nat → Nat → Span → Span → Span
  | [], _, longest, _ => longest
  | segment :: rest, i, longest, current =>
    if segment = 0 then
      let current : Span := { start := if current.len = 0 then i else current.start, len := current.len + 1 }
      longestZeros rest (i + 1) (if current.len > longest.len then current else longest) current
    else longestZeros rest (i + 1) longest {}

def segmentsText (chunk : List Nat) : String :=
  ":".intercalate (chunk.map fun segment => String.ofList (Nat.toDigits 16 segment))

def ipv6Text (octets : List UInt8) : String :=
  if octets.take 12 = List.replicate 10 0 ++ [0xFF, 0xFF] then "::ffff:" ++ ipv4Text (octets.drop 12)
  else
    let chunk := segments octets
    let zeros := longestZeros chunk 0 {} {}
    if zeros.len > 1 then
      segmentsText (chunk.take zeros.start) ++ "::" ++ segmentsText (chunk.drop (zeros.start + zeros.len))
    else segmentsText chunk

def socksSucceeded : UInt8 := 0

def socksCommandNotSupported : UInt8 := 7

def socksAddressNotSupported : UInt8 := 8

def socksError (message : String) : StreamError := .invalidData message

def replyBytes (code : UInt8) : List UInt8 := [5, code, 0, 1, 0, 0, 0, 0, 0, 0]

def socks5Reply (code : UInt8) : StreamM Unit := writeAll (replyBytes code)

def firstByte (bytes : List UInt8) : UInt8 := bytes.headD 0

def fromBeBytes (bytes : List UInt8) : UInt16 :=
  UInt16.ofNat ((bytes.getD 0 0).toNat * 256 + (bytes.getD 1 0).toNat)

def socks5Host (addressType : UInt8) : StreamM String :=
  if addressType = 1 then do
    let ip ← readExact 4
    pure (ipv4Text ip)
  else if addressType = 3 then do
    let len ← readExact 1
    let name ← readExact (firstByte len).toNat
    match ofUtf8 name with
    | some text => pure text
    | none => fail (socksError "invalid domain name")
  else if addressType = 4 then do
    let ip ← readExact 16
    pure (ipv6Text ip)
  else do
    socks5Reply socksAddressNotSupported
    fail (socksError "unknown address type")

def socks5Connect : StreamM (String × UInt16) := do
  let request ← readExact 4
  if request.getD 1 0 ≠ 1 then do
    socks5Reply socksCommandNotSupported
    fail (socksError "only CONNECT is supported")
  else do
    let host ← socks5Host (request.getD 3 0)
    let port ← readExact 2
    pure (host, fromBeBytes port)

def socks5Request : StreamM (String × UInt16) := do
  let greeting ← readExact 2
  if greeting.getD 0 0 ≠ 5 then fail (socksError "not a SOCKS5 client")
  else do
    let methods ← readExact (greeting.getD 1 0).toNat
    if (0 : UInt8) ∉ methods then do
      writeAll [5, 0xFF]
      fail (socksError "client requires authentication")
    else do
      writeAll [5, 0]
      socks5Connect

structure Methods where
  list : List UInt8
  length_le : list.length ≤ 255
  noAuthentication : (0 : UInt8) ∈ list

structure HostName where
  text : String
  length_le : (utf8 text).length ≤ 255

inductive Address where
  | ipv4 (octets : List UInt8) (length : octets.length = 4)
  | domain (name : HostName)
  | ipv6 (octets : List UInt8) (length : octets.length = 16)

def Address.host : Address → String
  | ipv4 octets _ => ipv4Text octets
  | domain name => name.text
  | ipv6 octets _ => ipv6Text octets

structure ConnectRequest where
  version : UInt8 := 5
  reserved : UInt8 := 0
  address : Address
  port : UInt16

def Methods.encode (methods : Methods) : List UInt8 :=
  5 :: UInt8.ofNat methods.list.length :: methods.list

def Address.encode : Address → List UInt8
  | ipv4 octets _ => 1 :: octets
  | domain name => 3 :: UInt8.ofNat (utf8 name.text).length :: utf8 name.text
  | ipv6 octets _ => 4 :: octets

def toBeBytes (port : UInt16) : List UInt8 := [UInt8.ofNat (port.toNat / 256), UInt8.ofNat (port.toNat % 256)]

def ConnectRequest.encode (request : ConnectRequest) : List UInt8 :=
  [request.version, 1, request.reserved] ++ request.address.encode ++ toBeBytes request.port

/-- A request is well formed: its version is 5, and a domain is not empty. -/
def ConnectRequest.WellFormed (request : ConnectRequest) : Prop :=
  request.version = 5 ∧ ∀ name, request.address = .domain name → name.text ≠ ""

/-- What was written is at most one method selection and one reply that is not a success. -/
def RefusalBytes (written : List UInt8) : Prop :=
  written = [] ∨ written = [5, 0xFF] ∨ written = [5, 0] ∨
    ∃ code, code ≠ socksSucceeded ∧ written = [5, 0] ++ replyBytes code

end Portix.Forward
