import Portix.Kibana.KibanaQuery
import Portix.Kibana.KibanaResults

/-!
# The Kibana page

`_KibanaPageState` of `kibana_page.dart`, as a machine: the handlers of the page, the calls that they begin,
and the answers to these, which come in any order.

What is only shown (columns, open rows, the list of data views) is left out, and so is the end of the page.
-/

namespace Portix.Kibana

open Lib

structure KibanaTexts where
  url : String := "http://localhost:9200"
  index : String := "*"
  query : String := ""
  deriving DecidableEq

/-- Where something is asked for: with curl on a saved server, or at the Kibana of a saved profile. -/
inductive KibanaSource where
  | server (profileId : Option String) (url : String)
  | kibana (login : Option KibanaLogin)
  deriving DecidableEq

/-- What a call of the page is for. -/
inductive KibanaTask where
  | restore
  | search (request : KibanaSearch) (texts : KibanaTexts)
  | dataViews
  | pick
  | connect
  | edit (old login : KibanaLogin)
  | save
  deriving DecidableEq

/-- What a call waits for. -/
inductive KibanaStage where
  | restoring
  | sent (retried : Bool)
  | signIn (old : Option KibanaLogin)
  | signing (old : Option KibanaLogin) (login : KibanaLogin)
  | exec (first : Bool)
  | hostKey (error : String)
  | prompts (error : String)
  | writing
  | done (result : Except String String)
  deriving DecidableEq

/-- A call under way, with the server and the login it began with. -/
structure KibanaCall where
  task : KibanaTask
  source : KibanaSource
  stage : KibanaStage
  deriving DecidableEq

/-- What a call that waits is answered. -/
inductive KibanaAnswer where
  | logins (saved : List KibanaLogin)
  | response (result : Except String String)
  | hostKey (trusted : Option Bool)
  | prompts (answered : Option Bool)
  | login (login : Option KibanaLogin)
  | written (error : Option String)

inductive KibanaReply where
  | restore (saved : List KibanaLogin)
  | wait (stage : KibanaStage)
  | ask
  | sign (old : Option KibanaLogin) (login : KibanaLogin)
  | resend
  | finish (result : Except String String)

namespace KibanaTask

def searches : KibanaTask → Bool
  | .search _ _ | .pick | .connect => true
  | .restore | .dataViews | .edit _ _ | .save => false

section Check

variable (readDouble : String → String)

def check (task : KibanaTask) (output : String) : Except KibanaFailure Unit :=
  match task with
  | .search _ _ => (parseKibanaHits readDouble "@timestamp" output).map fun _ => ()
  | .dataViews => (parseDataViews readDouble output).map fun _ => ()
  | .pick => (parseTimeField readDouble output).map fun _ => ()
  | .restore | .connect | .edit _ _ | .save => .ok ()

/-- `_kibana` on an answer; `thrown` is the text of what it does not expect. -/
def kibana (thrown : String → String) (task : KibanaTask) (retried : Bool) (result : Except String String) :
    KibanaReply :=
  match result with
  | .error error => .finish (.error error)
  | .ok output => match task.check readDouble output with
    | .ok () => .finish (.ok output)
    | .error (.format message) =>
      if retried || !(("Unauthorized".toList).isPrefixOf message.toList) then .finish (.error message) else .ask
    | .error .other => .finish (.error (thrown output))

def reply (thrown : String → String) (task : KibanaTask) : KibanaStage → KibanaAnswer → Option KibanaReply
  | .restoring, .logins saved => if task = .restore then some (.restore saved) else none
  | .sent retried, .response result => some (task.kibana readDouble thrown retried result)
  | .exec _, .response (.ok output) => some (.finish (.ok output))
  | .exec true, .response (.error error) => some (.wait (.hostKey error))
  | .exec false, .response (.error error) => some (.wait (.prompts error))
  | .hostKey _, .hostKey (some true) => some (.wait (.exec false))
  | .hostKey _, .hostKey (some false) => some (.wait (.prompts "Host key not trusted."))
  | .hostKey error, .hostKey none => some (.wait (.prompts error))
  | .prompts _, .prompts (some true) => some (.wait (.exec false))
  | .prompts error, .prompts _ => some (.finish (.error error))
  | .signIn _, .login none => some (.finish (.error "Not signed in."))
  -- the form of a sign-in is only submitted with a user or a key
  | .signIn old, .login (some login) => if login.auth.isSome then some (.sign old login) else none
  | .signing _ login, .written _ =>
    some (if login.auth.isNone then .finish (.error "Not signed in.") else .resend)
  | .writing, .written _ => some (.finish (.ok ""))
  | _, _ => none

end Check

end KibanaTask

inductive FilterChange (ν : Type) where
  | add (filter : KibanaFilter ν)
  | remove (filter : KibanaFilter ν)
  | replace (old next : KibanaFilter ν)
  | toggle (filter : KibanaFilter ν)
  | clear

/-- The fields of the page, its filters and results, and its calls. -/
structure KibanaPage (ν : Type) where
  profiles : List String
  texts : KibanaTexts := {}
  direct : Bool := false
  logins : List KibanaLogin := []
  login : Option KibanaLogin := none
  profileId : Option String := none
  sshConnected : Bool := false
  dataView : Option KibanaDataView := none
  timeField : String := "@timestamp"
  last : Int := 15 * 60 * DateTime.microsecondsPerSecond
  absolute : Option KibanaRange := none
  filters : List (KibanaFilter ν) := []
  disabled : List (KibanaFilter ν) := []
  result : Option KibanaResult := none
  searched : Option KibanaRange := none
  fields : List (String × Nat) := []
  samples : JsonMap := []
  error : Option String := none
  loading : Bool := false
  calls : List KibanaCall := [⟨.restore, .kibana none, .restoring⟩]
  newest : Option Nat := none

/-- What the user does, and the answers to the calls. -/
inductive KibanaEvent (ν : Type) where
  | edit (texts : KibanaTexts)
  | search
  | filter (change : FilterChange ν)
  | setLast (last : Int)
  | zoom (range : KibanaRange)
  | pickServer (id : String)
  | pickDataView (view : KibanaDataView)
  | loadDataViews
  | connect (login : KibanaLogin)
  | disconnect
  | newLogin (login : KibanaLogin)
  | editLogin (old login : KibanaLogin)
  | deleteLogin (login : KibanaLogin)
  | connectSsh
  | disconnectSsh
  | setDirect (direct : Bool)
  | answer (i : Nat) (answer : KibanaAnswer)

namespace KibanaPage

variable {ν : Type} [DecidableEq ν] (valueText : ν → ValueText) (readDouble thrown : String → String) (s : KibanaPage ν)

/-- `ready`: the page searches, and does not show the saved profiles or the form. -/
def ready : Bool :=
  if s.direct then s.login.isSome else s.sshConnected && s.profileId.any (decide <| · ∈ s.profiles)

def source (texts : KibanaTexts) : KibanaSource :=
  if s.direct then .kibana s.login else .server s.profileId texts.url

def searchFor (texts : KibanaTexts) (range : KibanaRange) : KibanaSearch where
  index := if s.direct then (s.dataView.map KibanaDataView.pattern).getD "*" else texts.index
  query := kibanaQueryWith valueText texts.query (s.filters.filter (· ∉ s.disabled))
  range := range
  timeField := s.timeField
  size := 200

def begin (call : KibanaCall) : KibanaPage ν :=
  { s with
    calls := s.calls ++ [call]
    newest := if call.task.searches then some s.calls.length else s.newest }

def search (now : Int) : KibanaPage ν :=
  let range := s.absolute.getD ⟨now - s.last, now⟩
  let task := KibanaTask.search (s.searchFor valueText s.texts range) s.texts
  if s.direct then
    match s.login with
    | none => s
    | some login => { s with loading := true, error := none }.begin ⟨task, .kibana (some login), .sent false⟩
  else
    match s.profileId.filter (· ∈ s.profiles) with
    | none => s
    | some id => { s with loading := true, error := none }.begin ⟨task, .server (some id) s.texts.url, .exec true⟩

def display (result : Except String String) (range : KibanaRange) : KibanaPage ν :=
  let s := { s with loading := false }
  match result with
  | .error error => { s with error := some error }
  | .ok output => match parseKibanaHits readDouble s.timeField output with
    | .ok result => { s with
        result := some result
        searched := some range
        fields := kibanaFields result.hits
        samples := samplesOf result.hits }
    | .error (.format message) => { s with error := some message }
    | .error .other => s

def saveLogin (old : Option KibanaLogin) (login : KibanaLogin) : KibanaPage ν :=
  { s with logins := login :: s.logins.filter fun l => some l ≠ old ∧ l ≠ login }

def connect (login : KibanaLogin) : KibanaPage ν :=
  ({ s with
    login := some login
    dataView := none
    timeField := "@timestamp"
    result := none
    error := none }.saveLogin (some login) login).begin ⟨.connect, .kibana (some login), .writing⟩

def disconnect : KibanaPage ν :=
  { s with login := none, result := none, error := none, dataView := none, newest := none }

def disconnectSsh : KibanaPage ν :=
  { s with sshConnected := false, result := none, error := none, newest := none }

def setDirect (direct : Bool) : KibanaPage ν :=
  if direct = s.direct then s
  else { s with
    direct := direct
    timeField := "@timestamp"
    dataView := none
    result := none
    error := none
    newest := none }

/-- What `_addFilter`, `_removeFilter`, `_replaceFilter`, `_toggleDisabled` and the button that clears them
do to the filters. -/
def change : FilterChange ν → KibanaPage ν
  | .add filter => { s with
      filters := s.filters.filter (fun f => ¬ (f.field = filter.field ∧ f.value = filter.value)) ++ [filter] }
  | .remove filter => { s with filters := s.filters.erase filter, disabled := s.disabled.erase filter }
  | .replace old next => { s with
      filters := if old ∈ s.filters then s.filters.set (s.filters.idxOf old) next else s.filters
      disabled := s.disabled.erase old }
  | .toggle filter => { s with
      disabled := if filter ∈ s.disabled then s.disabled.erase filter else s.disabled ++ [filter] }
  | .clear => { s with filters := [], disabled := [] }

def finish (call : KibanaCall) (result : Except String String) (now : Int) : KibanaPage ν :=
  match call.task with
  | .search request _ => s.display readDouble result request.range
  | .dataViews => { s with
      loading := false
      error := match result with
        | .ok _ => none
        | .error error => some error }
  | .pick => { s with
      timeField := (result.toOption.bind fun output =>
        (parseTimeField readDouble output).toOption.bind id).getD "@timestamp" }.search valueText now
  | .connect => s.search valueText now
  | .edit old login => if some old = s.login then s.connect login else s
  | .restore | .save => s

def resent (call : KibanaCall) : KibanaCall where
  task := match call.task with
    | .search request _ => .search (s.searchFor valueText s.texts request.range) s.texts
    | task => task
  source := .kibana s.login
  stage := .sent true

def react (i : Nat) (call : KibanaCall) (now : Int) : KibanaReply → KibanaPage ν
  | .restore saved =>
    let s := { s with calls := s.calls.set i { call with stage := .done (.ok "") } }
    if saved = [] then s else { s with logins := saved, direct := true }
  | .wait stage => { s with calls := s.calls.set i { call with stage := stage } }
  | .ask => { s with loading := false, calls := s.calls.set i { call with stage := .signIn s.login } }
  | .sign old login => { s with
      login := some login
      calls := s.calls.set i { call with stage := .signing old login } }.saveLogin old login
  | .resend => { s with loading := true, calls := s.calls.set i (s.resent valueText call) }
  | .finish result => { s with
      calls := s.calls.set i { call with stage := .done result } }.finish valueText readDouble call result now

def saved : KibanaAnswer → KibanaPage ν
  | .written (some error) => { s with error := some ("Login not saved: " ++ error) }
  | .written none | .logins _ | .response _ | .hostKey _ | .prompts _ | .login _ => s

def offers : KibanaEvent ν → Bool
  | .search => s.ready || s.error.isSome
  | .filter _ | .setLast _ | .zoom _ => s.ready
  | .pickServer id => !s.direct && decide (id ∈ s.profiles)
  | .pickDataView _ | .loadDataViews | .disconnect => s.direct && s.ready
  | .connect _ | .editLogin _ _ | .deleteLogin _ => s.direct
  | .newLogin _ => s.direct && !s.ready
  | .connectSsh => !s.direct && !s.ready && s.profileId.isSome
  | .disconnectSsh => !s.direct && s.ready
  | .setDirect _ => !s.ready
  | .edit _ | .answer _ _ => true

/-- One step of the page, at a time; `thrown` is the text of an exception that is no `FormatException`. -/
def step (e : KibanaEvent ν × Int) : Option (KibanaPage ν × List Unit) :=
  if s.offers e.1 then
    match e.1 with
    | .edit texts => some ({ s with texts := texts }, [])
    | .search => some (s.search valueText e.2, [])
    | .filter change => some ((s.change change).search valueText e.2, [])
    | .setLast last => some ({ s with last := last, absolute := none }.search valueText e.2, [])
    | .zoom range => some ({ s with absolute := some range }.search valueText e.2, [])
    | .pickServer id =>
      let picked := { s with profileId := some id }
      some (if s.ready then picked.search valueText e.2 else picked, [])
    | .pickDataView view =>
      some ({ s with dataView := some view }.begin ⟨.pick, .kibana s.login, .sent false⟩, [])
    | .loadDataViews =>
      some ({ s with loading := true, error := none }.begin ⟨.dataViews, .kibana s.login, .sent false⟩, [])
    | .connect login => some (s.connect login, [])
    | .disconnect => some (s.disconnect, [])
    | .newLogin login => some ((s.saveLogin none login).begin ⟨.save, .kibana s.login, .writing⟩, [])
    | .editLogin old login =>
      some ((s.saveLogin (some old) login).begin ⟨.edit old login, .kibana s.login, .writing⟩, [])
    | .deleteLogin login =>
      let s := if some login = s.login then s.disconnect else s
      some ({ s with logins := s.logins.filter (· ≠ login) }.begin ⟨.save, .kibana s.login, .writing⟩, [])
    | .connectSsh => some ({ s with sshConnected := true }.search valueText e.2, [])
    | .disconnectSsh => some (s.disconnectSsh, [])
    | .setDirect direct => some (s.setDirect direct, [])
    | .answer i answer => (s.calls[i]?).bind fun call =>
      (call.task.reply readDouble thrown call.stage answer).map fun reply =>
        ((s.saved answer).react valueText readDouble i call e.2 reply, [])
  else none

end KibanaPage

end Portix.Kibana

-- what the pills of the page and its query have to do with each other

namespace Portix.Kibana.KibanaPage

variable {ν κ : Type} [DecidableEq ν] [DecidableEq κ]

def enabled (s : KibanaPage ν) : List (KibanaFilter ν) := s.filters.filter (· ∉ s.disabled)

def clicked (s : KibanaPage ν) : KibanaEvent ν → Bool
  | .filter (.remove filter) => decide (filter ∈ s.filters)
  | .filter (.replace old _) => decide (old ∈ s.filters)
  | .filter (.toggle filter) => decide (filter ∈ s.filters)
  | _ => true

def Puts (s : KibanaPage ν) : KibanaEvent ν → KibanaFilter ν → Prop
  | .filter (.add filter), f => f = filter
  | .filter (.replace old next), f => old ∈ s.filters ∧ f = next
  | _, _ => False

/-- The pills but the one at a place stay enabled or disabled. -/
def KeepsOthers (s : KibanaPage ν) (i : Nat) (s' : KibanaPage ν) : Prop :=
  ∀ j f, j ≠ i → s.filters[j]? = some f → (f ∈ s'.disabled ↔ f ∈ s.disabled)

/-- The bar and the query agree after a step. `content` is what a value is: two lists with the same items are different
objects. -/
structure BarAgrees (valueText : ν → ValueText) (content : ν → κ) (s : KibanaPage ν) (e : KibanaEvent ν)
    (s' : KibanaPage ν) : Prop where
  onBar : ∀ f ∈ s'.disabled, f ∈ s'.filters
  inEffect : ∀ f, s.Puts e f → f ∈ s'.enabled
  once : ∀ f, e = .filter (.add f) →
    (s'.filters.filter fun g => g.field = f.field ∧ g.value.map content = f.value.map content).length ≤ 1
  removed : ∀ f, e = .filter (.remove f) → ∀ i, s.filters[i]? = some f →
    s'.filters = s.filters.eraseIdx i ∧ s.KeepsOthers i s'
  replaced : ∀ old next, e = .filter (.replace old next) → ∀ i, s.filters[i]? = some old →
    s'.filters = s.filters.set i next ∧ s.KeepsOthers i s'
  sent : ∀ (i : Nat) request texts, (s'.calls[i]?).map KibanaCall.task = some (.search request texts) →
    (s.calls[i]?).map KibanaCall.task = some (.search request texts) ∨
      request.query = kibanaQueryWith valueText texts.query s'.enabled

/-- No filter is added whose field and value a disabled pill has, or a list that another pill has; and none is
replaced by one that is on the bar. -/
def apart (content : ν → κ) (s : KibanaPage ν) : KibanaEvent ν → Bool
  | .filter (.add filter) =>
    (s.disabled.all fun f => !decide (f.field = filter.field ∧ f.value = filter.value)) &&
      s.filters.all fun f => !decide (f.field = filter.field ∧ f.value.map content = filter.value.map content) ||
        decide (f.value = filter.value)
  | .filter (.replace old next) => decide (next = old) || decide (next ∉ s.filters)
  | _ => true

end Portix.Kibana.KibanaPage
