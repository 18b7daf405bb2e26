import Portix.Kubernetes.KubeDetail

/-!
# Cluster tabs

The tabs of `kube_cluster_pages.dart` with their pages of resources, and the servers that run their
commands, as a machine: what the user does, and the commands that a server runs and answers in any order. A
switch of the context changes what every later command on its server reads and changes.

A tab counts from when its checks have passed: from then on its server stays. What is only shown (the
filter, the sorting, notes and errors, whether something is loading) is left out.
-/

namespace Portix.Kubernetes

open Lib

/-- Where something was read: the server, the context that its kubeconfig had, and the generation of the tab
that asked. It is not in the source, and nothing depends on it. -/
structure KubeOrigin where
  server : String
  context : String
  generation : Nat
  deriving DecidableEq

/-- An item that was read. Two are the same object if they come from the same place of the same answer. -/
structure KubeRow where
  item : JsonMap
  place : Nat × Nat
  origin : KubeOrigin

/-- The item that is shown by itself, with its pods and services. -/
structure KubeDetail where
  row : KubeRow
  pods : List KubeRow
  services : List KubeRow

/-- What a list was loaded for: the namespaces, and the generation of the tab. -/
structure PageKey where
  namespaces : Option String
  generation : Nat
  deriving DecidableEq

/-- `_ResourcePageState`. The detail opened last comes first in its trail. -/
structure ResourcePage where
  visible : Bool := false
  items : List KubeRow := []
  loadedFor : Option PageKey := none
  due : Nat := 0
  ticked : List String := []
  trail : List (KubeKind × KubeRow) := []
  detail : Option KubeDetail := none

/-- A tab: its server, the namespaces picked, and a page for each kind. -/
structure KubeTab where
  server : Option String := none
  picked : List String := []
  generation : Nat := 0
  pages : KubeKind → ResourcePage := fun _ => {}

/-- What can be done to a row. -/
inductive RowAction where
  | delete
  | scale (replicas : Int64) (asked : Bool)
  | kube (action : KubeAction) (now : Int)
  deriving DecidableEq

/-- What a call is for. -/
inductive KubeTask where
  | list (key : PageKey)
  | detail (opened : KubeKind × KubeRow)
  | apply (kind : KubeKind) (row : KubeRow) (action : RowAction) (closing : Option (KubeKind × KubeRow))
  | bulk (row : KubeRow) (rest : List KubeRow) (action : RowAction)
  | edit (kind : KubeKind) (row : KubeRow) (form : Bool)
  | save (origin : KubeOrigin) (form : Bool)
  | switch (context : String)

/-- How far a call has got: asking the user, sent to the server, or after its command ran. -/
inductive KubeStage where
  | asking
  | sent
  | ran (context : String)
  | prompting
  | reloading (reload : Nat)
  | done
  deriving DecidableEq

/-- A call of a page. The generation of the tab when it began is not in the source. -/
structure KubeCall where
  tab : Nat
  page : KubeKind
  quiet : Bool := false
  generation : Nat
  task : KubeTask
  stage : KubeStage

/-- The tabs, the calls of all of them, and the context in use on each server. -/
structure KubeClusters where
  contexts : String → String
  openTabs : List Nat := []
  tabs : Nat → KubeTab := fun _ => {}
  calls : List KubeCall := []

/-- A command that changes a cluster, where it ran, and where the row it is about was read. -/
structure KubeChange where
  server : String
  context : String
  command : String
  origin : KubeOrigin
  deriving DecidableEq

/-- What the user does, the timers and the answers of the servers, in any order. -/
inductive KubeEvent where
  | openTab (t : Nat) (server : String)
  | closeTab (t : Nat)
  | show (t : Nat) (kind : KubeKind) (visible : Bool)
  | frame (t : Nat) (kind : KubeKind)
  | timer (t : Nat) (kind : KubeKind)
  | refresh (t : Nat) (kind : KubeKind)
  | toggleNamespace (t : Nat) (value : Option String)
  | setNamespaces (t : Nat) (value : List String)
  | tick (t : Nat) (kind : KubeKind) (ticked : List String)
  | openDetail (t : Nat) (kind : KubeKind) (place : Nat × Nat)
  | closeDetail (t : Nat) (kind : KubeKind)
  | act (t : Nat) (kind : KubeKind) (place : Nat × Nat) (action : RowAction)
  | edit (t : Nat) (kind : KubeKind) (place : Nat × Nat) (form : Bool)
  | applyPicked (t : Nat) (kind : KubeKind) (action : RowAction)
  | dialog (i : Nat) (confirmed : Bool)
  | use (t : Nat) (context : String)
  | run (i : Nat)
  | answer (i : Nat) (result : Except String String)
  | resolve (i : Nat) (again : Bool)
  | close (i : Nat)

section Reading

variable (readDouble : String → String)

def rowsAt (i first : Nat) (origin : KubeOrigin) (items : List JsonMap) : List KubeRow :=
  items.zipIdx.map fun item => ⟨item.1, (i, first + item.2), origin⟩

def readDetail (i : Nat) (origin : KubeOrigin) (output : String) : Option KubeDetail :=
  (splitDetail readDouble output).map fun detail =>
    { row := ⟨detail.item, (i, 0), origin⟩
      pods := rowsAt i 1 origin detail.pods
      services := rowsAt i (1 + detail.pods.length) origin detail.services }

end Reading

variable (tab : KubeTab)

/-- What the list of a page is to be loaded for. -/
def KubeTab.key (kind : KubeKind) : PageKey where
  namespaces := if kind.namespaced then
      some (",".intercalate (tab.picked.insertionSort fun a b => a ≤ b))
    else none
  generation := tab.generation

def pickKey (row : KubeRow) : String :=
  ((namespaceOf row.item).bind id).getD "" ++ "/" ++ nameOf row.item

/-- The rows that are ticked. -/
def ResourcePage.pickedItems (page : ResourcePage) : List KubeRow :=
  page.items.filter fun row => decide (pickKey row ∈ page.ticked)

/-- The items that a page shows, with their kinds: the list, or a detail with its pods and services. -/
def ResourcePage.shown (page : ResourcePage) (kind : KubeKind) : List (KubeKind × KubeRow) :=
  match page.trail, page.detail with
  | [], _ => page.items.map fun row => (kind, row)
  | opened :: _, some detail =>
    (opened.1, detail.row) :: (detail.pods.map fun row => ({ type := "pods" }, row)) ++
      detail.services.map fun row => ({ type := "services" }, row)
  | _ :: _, none => []

/-- A page that is seen and was loaded for something else closes its details and is due. -/
def KubeTab.sync (kind : KubeKind) : ResourcePage :=
  let page := tab.pages kind
  if page.visible ∧ page.loadedFor ≠ some (tab.key kind) then
    { page with trail := [], detail := none, due := page.due + 1 }
  else page

def KubeTab.notify : KubeTab := { tab with pages := tab.sync }

def KubeTab.setPage (kind : KubeKind) (page : ResourcePage) : KubeTab :=
  { tab with pages := Function.update tab.pages kind page }

def RowAction.command (kind : KubeKind) (row : KubeRow) : RowAction → Option String
  | .delete => deleteCommand kind row.item
  | .scale replicas _ => scaleCommand kind row.item replicas
  | .kube action now => (actionCommand action kind row.item now).bind id

def RowAction.asks : RowAction → Bool
  | .delete => true
  | .scale _ asked => asked
  | .kube action _ => decide (action = .drain) || decide (action = .rollback)

def KubeTask.origin : KubeTask → Option KubeOrigin
  | .apply _ row _ _ | .bulk row _ _ => some row.origin
  | .save origin _ => some origin
  | .list _ | .detail _ | .edit _ _ _ | .switch _ => none

def KubeCall.command (call : KubeCall) : Option String :=
  match call.task with
  | .list _ => some (listCommand call.page
      (if call.page.namespaced then match tab.picked with
        | [namespaceName] => some namespaceName
        | _ => none
      else none))
  | .detail opened => detailCommand opened.1 opened.2.item
  | .apply kind row action _ => action.command kind row
  | .bulk row _ action => action.command call.page row
  | .edit kind row form => if form then itemCommand kind row.item else yamlCommand kind row.item
  | .save _ form => some (if form then "kubectl replace -f -" else applyCommand none)
  | .switch context => some ("kubectl config use-context " ++ shellQuote context)

namespace KubeClusters

variable (s : KubeClusters) (t : Nat)

def setTab (tab : KubeTab) : KubeClusters :=
  { s with tabs := Function.update s.tabs t tab }

variable (kind : KubeKind)

def setPage (page : ResourcePage) : KubeClusters :=
  s.setTab t ((s.tabs t).setPage kind page)

variable (i : Nat) (call : KubeCall)

def setCall : KubeClusters := { s with calls := s.calls.set i call }

def setStage (stage : KubeStage) : KubeClusters :=
  s.setCall i { call with stage := stage }

/-- A call begins, if it has a command. -/
def begin (quiet : Bool) (task : KubeTask) (stage : KubeStage) :
    KubeClusters :=
  let call : KubeCall := ⟨t, kind, quiet, (s.tabs t).generation, task, stage⟩
  if (call.command (s.tabs t)).isSome then { s with calls := s.calls ++ [call] } else s

/-- `_load`: a list again, or the detail on top. -/
def load (quiet : Bool) : KubeClusters :=
  let page := (s.tabs t).pages kind
  let key := (s.tabs t).key kind
  match page.trail with
  | opened :: _ => s.begin t kind quiet (.detail opened) .sent
  | [] =>
    let s := if !quiet ∧ page.loadedFor ≠ some key then s.setPage t kind { page with items := [] } else s
    s.begin t kind quiet (.list key) .sent

/-- The output of a list is shown if the page is still as it was asked for. -/
def listed (readDouble : String → String) (s : KubeClusters) (i : Nat) (call : KubeCall) (key : PageKey)
    (context output : String) : KubeClusters :=
  let tab := s.tabs call.tab
  let page := tab.pages call.page
  if call.tab ∈ s.openTabs ∧ tab.key call.page = key then
    let several := call.page.namespaced ∧ 1 < tab.picked.length
    let kept : Option (List JsonMap) := (parseItems readDouble output).bind fun items =>
      if several then items.filterM fun item => (namespaceOf item).map fun ns => ns.any (· ∈ tab.picked)
      else some items
    match kept, tab.server with
    | some items, some server =>
      let rows := rowsAt i 0 ⟨server, context, call.generation⟩ items
      s.setPage call.tab call.page
        { page with
          items := rows
          loadedFor := some key
          ticked := page.ticked.filter fun ticked => decide (ticked ∈ rows.map pickKey) }
    | _, _ => s
  else s

def sameDetail (page : ResourcePage) (opened : KubeKind × KubeRow) : Bool :=
  page.trail.head?.any fun detail => decide (detail.1 = opened.1 ∧ detail.2.place = opened.2.place)

/-- The output of a detail is shown if that is still on top. -/
def detailed (readDouble : String → String) (s : KubeClusters) (i : Nat) (call : KubeCall)
    (opened : KubeKind × KubeRow) (context output : String) : KubeClusters :=
  let tab := s.tabs call.tab
  let page := tab.pages call.page
  if call.tab ∈ s.openTabs ∧ sameDetail page opened then
    match tab.server.bind fun server => readDetail readDouble i ⟨server, context, call.generation⟩ output with
    | some detail => s.setPage call.tab call.page { page with detail := some detail }
    | none => s
  else s

/-- An action on several rows goes on with the next one. -/
def goOn (next : KubeRow) (rest : List KubeRow) (action : RowAction) :
    KubeClusters :=
  if (action.command call.page next).isSome then
    s.setCall i { call with task := .bulk next rest action, stage := .sent }
  else s.setStage i call .done

/-- `_apply` after the command of a call: the page loads again, and what closes a detail waits for that. -/
def applied (closing : Option (KubeKind × KubeRow)) : KubeClusters :=
  let loaded := s.load call.tab call.page false
  if closing.isSome ∧ s.calls.length < loaded.calls.length then
    loaded.setStage i call (.reloading s.calls.length)
  else loaded

def closeDetail : KubeClusters :=
  let page := (s.tabs t).pages kind
  (s.setPage t kind { page with trail := page.trail.tail, detail := none }).load t kind page.trail.tail.isEmpty

/-- The command of a call was run in a context, and answered well: its handler goes on. -/
def succeed (readDouble : String → String) (s : KubeClusters) (i : Nat) (call : KubeCall) (context output : String) :
    KubeClusters :=
  let tab := s.tabs call.tab
  let ended := s.setStage i call .done
  match call.task with
  | .list key => ended.listed readDouble i call key context output
  | .detail opened => ended.detailed readDouble i call opened context output
  | .apply _ _ _ closing => if call.tab ∈ s.openTabs then ended.applied i call closing else ended
  | .save _ _ => if call.tab ∈ s.openTabs then ended.load call.tab call.page false else ended
  | .bulk row rest action =>
    if call.tab ∈ s.openTabs then
      let page := tab.pages call.page
      let s := s.setPage call.tab call.page { page with ticked := page.ticked.filter (· ≠ pickKey row) }
      match rest with
      | [] => (s.setStage i call .done).load call.tab call.page true
      | next :: rest => s.goOn i call next rest action
    else ended
  | .edit _ _ form => match tab.server with
    | some server =>
      if call.tab ∈ s.openTabs ∧ (form → (readItem readDouble output).isSome) then
        s.setCall i { call with task := .save ⟨server, context, call.generation⟩ form, stage := .asking }
      else ended
    | none => ended
  -- `kube.reload()`
  | .switch _ => ended.setTab call.tab { tab with generation := tab.generation + 1 }.notify

/-- The handler of a call goes on after an error. -/
def fail : KubeClusters :=
  match call.task with
  | .bulk _ (next :: rest) action =>
    if call.tab ∈ s.openTabs then
      s.goOn i call next rest action
    else s.setStage i call .done
  | .bulk _ [] _ =>
    if call.tab ∈ s.openTabs then (s.setStage i call .done).load call.tab call.page true
    else s.setStage i call .done
  | .save _ _ => s.setStage i call .asking
  | .list _ | .detail _ | .apply _ _ _ _ | .edit _ _ _ | .switch _ => s.setStage i call .done

def rowAt (place : Nat × Nat) : Option (KubeKind × KubeRow) :=
  let page := (s.tabs t).pages kind
  if t ∈ s.openTabs ∧ page.visible then (page.shown kind).find? fun shown => decide (shown.2.place = place)
  else none

/-- The entry of the trail that an action closes: the one whose item is deleted. -/
def closing (place : Nat × Nat) (action : RowAction) :
    Option (KubeKind × KubeRow) :=
  let page := (s.tabs t).pages kind
  if action = .delete ∧ page.detail.any (fun detail => decide (detail.row.place = place)) then page.trail.head?
  else none

/-- A server runs the command of a call in the context it has now. -/
def runCall (server : String) : KubeClusters × List KubeChange :=
  let context := s.contexts server
  let ran := s.setStage i call (.ran context)
  match call.task with
  | .switch context => ({ ran with contexts := Function.update s.contexts server context }, [])
  | task => (ran, (task.origin.map fun origin =>
      ⟨server, context, (call.command (s.tabs call.tab)).getD "", origin⟩).toList)

/-- One step of the tabs, with the commands that were run in it to change a cluster. -/
def step (readDouble : String → String) (s : KubeClusters) : KubeEvent → Option (KubeClusters × List KubeChange)
  | .openTab t server =>
    if (s.tabs t).server = none then
      some ({ s with openTabs := s.openTabs ++ [t] }.setTab t { server := some server, generation := 1 }, [])
    else none
  | .closeTab t => some ({ s with openTabs := s.openTabs.filter (· ≠ t) }, [])
  | .show t kind visible =>
    if t ∈ s.openTabs then
      let tab := (s.tabs t).setPage kind { (s.tabs t).pages kind with visible := visible }
      some (s.setTab t (tab.setPage kind (tab.sync kind)), [])
    else none
  | .frame t kind =>
    let page := (s.tabs t).pages kind
    if t ∈ s.openTabs ∧ 0 < page.due then
      let s := s.setPage t kind { page with due := page.due - 1 }
      some (if page.loadedFor ≠ some ((s.tabs t).key kind) then s.load t kind false else s, [])
    else none
  | .timer t kind =>
    if t ∈ s.openTabs ∧ ((s.tabs t).pages kind).visible then some (s.load t kind true, []) else none
  | .refresh t kind =>
    if t ∈ s.openTabs ∧ ((s.tabs t).pages kind).visible then some (s.load t kind false, []) else none
  | .toggleNamespace t value =>
    if t ∈ s.openTabs then
      let tab := s.tabs t
      some (s.setTab t { tab with
        picked := match value with
          | none => []
          | some value => if value ∈ tab.picked then tab.picked.erase value else tab.picked ++ [value] }.notify, [])
    else none
  | .setNamespaces t value =>
    if t ∈ s.openTabs then
      let tab := s.tabs t
      some (s.setTab t { tab with picked := tab.picked.filter (· ∈ value) }.notify, [])
    else none
  | .tick t kind ticked => some (s.setPage t kind { (s.tabs t).pages kind with ticked := ticked }, [])
  | .openDetail t kind place => (s.rowAt t kind place).map fun shown =>
    let page := (s.tabs t).pages kind
    ((s.setPage t kind { page with trail := shown :: page.trail, detail := none }).load t kind false, [])
  | .closeDetail t kind =>
    let page := (s.tabs t).pages kind
    if t ∈ s.openTabs ∧ page.visible ∧ page.trail ≠ [] then some (s.closeDetail t kind, []) else none
  | .act t kind place action => (s.rowAt t kind place).map fun shown =>
    (s.begin t kind false (.apply shown.1 shown.2 action (s.closing t kind place action))
      (if action.asks then .asking else .sent), [])
  | .edit t kind place form => (s.rowAt t kind place).map fun shown =>
    (s.begin t kind false (.edit shown.1 shown.2 form) .sent, [])
  | .applyPicked t kind action =>
    let page := (s.tabs t).pages kind
    if t ∈ s.openTabs ∧ page.visible ∧ page.trail = [] then
      match page.pickedItems with
      | [] => none
      | row :: rest => some (s.begin t kind false (.bulk row rest action) .asking, [])
    else none
  | .dialog i confirmed => (s.calls[i]?).bind fun call =>
    if call.stage = .asking ∧ call.tab ∈ s.openTabs then
      some (s.setStage i call (if confirmed then .sent else .done), [])
    else none
  | .use t context =>
    if t ∈ s.openTabs then some (s.begin t { type := "contexts" } false (.switch context) .sent, []) else none
  | .run i => (s.calls[i]?).bind fun call =>
    if call.stage = .sent then (s.tabs call.tab).server.map fun server => s.runCall i call server else none
  | .answer i result => (s.calls[i]?).bind fun call =>
    match call.stage, result with
    | .ran context, .ok output => some (s.succeed readDouble i call context output, [])
    | .ran _, .error _ | .sent, .error _ =>
      some (if call.quiet then s.fail i call else s.setStage i call .prompting, [])
    | _, _ => none
  | .resolve i again => (s.calls[i]?).bind fun call =>
    if call.stage = .prompting then some (if again then s.setStage i call .sent else s.fail i call, []) else none
  | .close i => (s.calls[i]?).bind fun call =>
    match call.stage, call.task with
    | .reloading reload, .apply _ _ _ (some _) =>
      if (s.calls[reload]?).any fun other => decide (other.stage = .done) then
        let ended := s.setStage i call .done
        -- `removeLast` throws where the trail is empty
        some (if call.tab ∈ s.openTabs ∧ ((s.tabs call.tab).pages call.page).trail ≠ [] then
            ended.closeDetail call.tab call.page
          else ended, [])
      else none
    | _, _ => none

end KubeClusters

end Portix.Kubernetes
