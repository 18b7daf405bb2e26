import Portix.Lib.Tabs

/-!
# The tabs of the Kubernetes page

`KubeTabs` of `kube_cluster_pages.dart`: they are closed around the shown one. A cluster is the number with which it
was made.
-/

namespace Portix.Kubernetes

/-- The tabs of the page, and the one that is shown. -/
structure KubeTabs where
  tabs : List Nat := [0]
  active : Nat := 0
  made : Nat := 1

namespace KubeTabs

variable (s : KubeTabs)

def current : Option Nat := s.tabs[s.active]?

def add : KubeTabs :=
  { tabs := s.tabs ++ [s.made], active := s.tabs.length, made := s.made + 1 }

def select (index : Nat) : KubeTabs := { s with active := index }

def remaining (index : Nat) : List Nat :=
  if (s.tabs.eraseIdx index).isEmpty then [s.made] else s.tabs.eraseIdx index

def close (index : Nat) : KubeTabs where
  tabs := s.remaining index
  made := if (s.tabs.eraseIdx index).isEmpty then s.made + 1 else s.made
  active :=
    if (s.remaining index).length ≤ s.active ∨ index < s.active then
      min (s.active - 1) ((s.remaining index).length - 1)
    else s.active

end KubeTabs

inductive KubeTabEvent where
  | add
  | select (index : Nat)
  | close (index : Nat)

def KubeTabs.step (s : KubeTabs) : KubeTabEvent → Option (KubeTabs × List Unit)
  | .add => some (s.add, [])
  | .select index => if index < s.tabs.length then some (s.select index, []) else none
  | .close index => if index < s.tabs.length then some (s.close index, []) else none

end Portix.Kubernetes
