import Portix.Kibana.KibanaPage
import Portix.Lib.Machine

/-!
# The profiles of Kibana in the keychain

All profiles are one secret: `encodeKibanaLogins` and `decodeKibanaLogins` of `kibana_query.dart`. The page of
`KibanaPage` with this secret, which it reads once when it is opened and writes whenever its list changes.
-/

namespace Portix.Kibana

open Lib Json

def loginEntries (login : KibanaLogin) : JsonMap :=
  [("name", .string login.name), ("url", .string login.url)] ++
    match login.auth with
    | some auth => [("apiKey", .bool auth.apiKey), ("user", .string auth.user), ("secret", .string auth.secret)]
    | none => []

def encodeKibanaLogins (logins : List KibanaLogin) : String :=
  encode compact (.list (logins.map fun login => .map (loginEntries login)))

def decodeAuth (item : JsonMap) : Option KibanaAuth :=
  match get item "apiKey", get item "user", get item "secret" with
  | .bool apiKey, .string user, .string secret => some ⟨apiKey, user, secret⟩
  | _, _, _ => none

def decodeLogin : Json → Option KibanaLogin
  | .map item => match get item "name", get item "url" with
    | .string name, .string url => some ⟨name, url, decodeAuth item⟩
    | _, _ => none
  | _ => none

def decodeKibanaLogins (readDouble : String → String) (raw : Option String) : List KibanaLogin :=
  match decode readDouble (raw.getD "") with
  | some (.list items) => items.filterMap decodeLogin
  | _ => []

/-- What the user does to the saved logins. -/
inductive KibanaChange where
  | save (old : Option KibanaLogin) (login : KibanaLogin)
  | delete (login : KibanaLogin)

namespace KibanaChange

def apply : KibanaChange → List KibanaLogin → List KibanaLogin
  | .save old login, logins => login :: logins.filter fun l => some l ≠ old ∧ l ≠ login
  | .delete login, logins => logins.filter (· ≠ login)

def drops (login : KibanaLogin) : KibanaChange → Bool
  | .save old new => some login = old && login ≠ new
  | .delete deleted => login = deleted

def kept (change : KibanaChange) (logins : List KibanaLogin) : List KibanaLogin :=
  logins.filter fun login => !change.drops login

end KibanaChange

section Changes

variable {ν : Type} (readDouble thrown : String → String)

/-- How the list changes when a call goes on, and the call that then waits for the keychain. -/
def KibanaPage.changesOn (s : KibanaPage ν) (i : Nat) (call : KibanaCall) :
    KibanaReply → Option (KibanaChange × Nat)
  | .sign old login => some (.save old login, i)
  | .finish _ => match call.task with
    | .edit old login => if some old = s.login then some (.save (some login) login, s.calls.length) else none
    | _ => none
  | .restore _ | .wait _ | .ask | .resend => none

/-- How the list changes by an event, and the call that then waits for the keychain. -/
def KibanaPage.changes (s : KibanaPage ν) : KibanaEvent ν → Option (KibanaChange × Nat)
  | .connect login => some (.save (some login) login, s.calls.length)
  | .newLogin login => some (.save none login, s.calls.length)
  | .editLogin old login => some (.save (some old) login, s.calls.length)
  | .deleteLogin login => some (.delete login, s.calls.length)
  | .answer i answer => (s.calls[i]?).bind fun call =>
    (call.task.reply readDouble thrown call.stage answer).bind (s.changesOn i call)
  | _ => none

end Changes

/-- A write of the logins: what it writes, and what was to be saved then. -/
structure KibanaWrite where
  call : Nat
  logins : List KibanaLogin
  wanted : List KibanaLogin

def KibanaWrite.secret (w : KibanaWrite) : Option String :=
  if w.logins = [] then none else some (encodeKibanaLogins w.logins)

inductive KibanaRestore where
  | reading
  | read (raw : Option String)
  | failed
  | ended
  deriving DecidableEq

/-- The page with the keychain it reads its logins from and writes them to. -/
structure KibanaKeychain (ν : Type) where
  page : KibanaPage ν
  secret : Option String
  writes : List KibanaWrite := []
  outcomes : List (Nat × Option String) := []
  restore : KibanaRestore := .reading
  atStart : List KibanaLogin
  saved : List KibanaLogin

inductive KeychainEvent (ν : Type) where
  | read (fails : Bool)
  | write (k : Nat) (error : Option String)
  | page (e : KibanaEvent ν)

namespace KibanaKeychain

variable {ν : Type} [DecidableEq ν] (valueText : ν → ValueText) (readDouble thrown : String → String)

def opened (profiles : List String) (secret : Option String) : KibanaKeychain ν where
  page := { profiles := profiles }
  secret := secret
  atStart := decodeKibanaLogins readDouble secret
  saved := decodeKibanaLogins readDouble secret

variable (s : KibanaKeychain ν)

def admits : KibanaEvent ν → Bool
  | .answer _ (.logins logins) => match s.restore with
    | .read raw => logins = decodeKibanaLogins readDouble raw
    | .failed => logins = []
    | .reading | .ended => false
  | .answer i (.written error) => decide ((i, error) ∈ s.outcomes)
  | _ => true

def consume : KibanaEvent ν → KibanaKeychain ν
  | .answer _ (.logins _) => { s with restore := .ended }
  | .answer i (.written error) => { s with outcomes := s.outcomes.erase (i, error) }
  | _ => s

def change (change : KibanaChange) (call : Nat) : KibanaKeychain ν :=
  { s with
    writes := (s.writes.map fun w => { w with wanted := change.kept w.wanted }) ++
      [⟨call, s.page.logins, s.page.logins⟩]
    saved := change.kept s.saved }

def changeIf : Option (KibanaChange × Nat) → KibanaKeychain ν
  | some (change, call) => s.change change call
  | none => s

def step (e : KeychainEvent ν × Int) : Option (KibanaKeychain ν × List Unit) :=
  match e.1 with
  | .read fails =>
    if s.restore = .reading then some ({ s with restore := if fails then .failed else .read s.secret }, []) else none
  | .write k error => (s.writes[k]?).map fun w =>
    let s := { s with writes := s.writes.eraseIdx k, outcomes := (w.call, error) :: s.outcomes }
    if error.isSome then (s, []) else ({ s with secret := w.secret, saved := s.saved ++ w.wanted }, [])
  | .page event =>
    if s.admits readDouble event then
      (s.page.step valueText readDouble thrown (event, e.2)).map fun r =>
        (({ s.consume event with page := r.1 } : KibanaKeychain ν).changeIf
          (s.page.changes readDouble thrown event), [])
    else none

/-- No profile is lost from the keychain, once everything is written, nor from the page, once it has read the
keychain. -/
def Keeps : Prop :=
  (s.writes = [] → ∀ login ∈ s.saved, login ∈ decodeKibanaLogins readDouble s.secret) ∧
    (s.restore = .ended → ∀ login ∈ s.saved, login ∈ s.page.logins)

def restored : Bool := decide (s.atStart = []) || decide (s.restore = .ended)

def careful : KeychainEvent ν → Bool
  -- the keychain can be read, if anything is in it
  | .read fails => !fails || decide (s.atStart = [])
  -- a list takes effect after those begun before it, unless they have all of its profiles
  | .write k error => error.isSome || (s.writes[k]?).all fun w =>
    (s.writes.take k).all fun older => w.logins.all (decide <| · ∈ older.logins)
  -- a list that was read has what is on the page
  | .page (.answer _ (.logins logins)) => decide (logins = []) || s.page.logins.all (decide <| · ∈ logins)
  -- the list changes when it was read
  | .page event => (s.page.changes readDouble thrown event).isNone || s.restored

end KibanaKeychain

end Portix.Kibana
