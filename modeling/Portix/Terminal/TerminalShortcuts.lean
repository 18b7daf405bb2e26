import Portix.Lib.Text

/-!
# Shortcuts of the terminal

How `terminal_shortcuts.dart` prints and reads a binding, and what `keyboard_shortcuts_dialog.dart` lets through.
-/

namespace Portix.Terminal

open Lib

structure Keyboard (κ : Type) where
  keyLabel : κ → String
  knownLogicalKeys : List κ
  toLowerCase : String → String
  lower_ctrl : toLowerCase "Ctrl" = "ctrl"
  lower_shift : toLowerCase "Shift" = "shift"
  lower_alt : toLowerCase "Alt" = "alt"
  lower_cmd : toLowerCase "Cmd" = "cmd"
  add : κ
  numpadAdd : κ
  equal : κ
  underscore : κ
  numpadSubtract : κ
  minus : κ
  parenthesisRight : κ
  numpad0 : κ
  digit0 : κ
  escape : κ
  modifierKeys : List κ

/-- A key with its modifiers. -/
structure SingleActivator (κ : Type) where
  trigger : κ
  control : Bool := false
  shift : Bool := false
  alt : Bool := false
  metaKey : Bool := false

namespace SingleActivator

def heldNames {κ : Type} (binding : SingleActivator κ) : List String :=
  (if binding.control then ["Ctrl"] else []) ++ (if binding.shift then ["Shift"] else []) ++
    (if binding.alt then ["Alt"] else []) ++ (if binding.metaKey then ["Cmd"] else [])

end SingleActivator

def formatBinding {κ : Type} (keyboard : Keyboard κ) (binding : SingleActivator κ) : String :=
  "+".intercalate (binding.heldNames ++ [keyboard.keyLabel binding.trigger])

def plusParts (text : String) : List String := (splitChar '+' text).filter fun part => part ≠ ""

def dropEnd (text : String) : String := String.ofList text.toList.dropLast

/-- The parts before the key, and its label: `+` where the text ends with it. -/
def splitBinding (text : String) : List String × String :=
  if endsWith text '+' then (plusParts (dropEnd text), "+")
  else ((plusParts text).dropLast, (plusParts text).getLastD "")

section Reading

variable {κ : Type} (keyboard : Keyboard κ)

def keyNamed (label : String) : Option κ :=
  keyboard.knownLogicalKeys.find? fun key =>
    keyboard.toLowerCase (keyboard.keyLabel key) = keyboard.toLowerCase label

def modifierNames : List String := ["ctrl", "shift", "alt", "cmd"]

def activator (key : κ) (mods : List String) : SingleActivator κ where
  trigger := key
  control := mods.contains "ctrl"
  shift := mods.contains "shift"
  alt := mods.contains "alt"
  metaKey := mods.contains "cmd"

/-- The binding of the key with a label, where the other parts are modifiers. -/
def readParts (parts : List String) (label : String) : Option (SingleActivator κ) :=
  if (parts.map keyboard.toLowerCase).all modifierNames.contains then
    (keyNamed keyboard label).map fun key => activator key (parts.map keyboard.toLowerCase)
  else none

def parseBinding (value : Option String) : Option (SingleActivator κ) :=
  if dartTrim (value.getD "") = "" then none
  else
    readParts keyboard (splitBinding (dartTrim (value.getD ""))).1 (splitBinding (dartTrim (value.getD ""))).2

end Reading

section Presses

variable {κ : Type} [DecidableEq κ] (keyboard : Keyboard κ)

def canonicalKey (key : κ) : κ :=
  if key = keyboard.add ∨ key = keyboard.numpadAdd then keyboard.equal
  else if key = keyboard.underscore ∨ key = keyboard.numpadSubtract then keyboard.minus
  else if key = keyboard.parenthesisRight ∨ key = keyboard.numpad0 then keyboard.digit0
  else key

def bindingMatches (binding press : SingleActivator κ) : Bool :=
  decide (canonicalKey keyboard binding.trigger = canonicalKey keyboard press.trigger) &&
    binding.control == press.control && binding.shift == press.shift && binding.alt == press.alt &&
    binding.metaKey == press.metaKey

/-- `keyError` and `_onKey`: what the editor records, where the other commands have some bindings. -/
def accepts (others : List (SingleActivator κ)) (binding : SingleActivator κ) : Bool :=
  binding.trigger ≠ keyboard.escape && !keyboard.modifierKeys.contains binding.trigger &&
    (binding.control || binding.alt || binding.metaKey) && others.all fun other =>
      !bindingMatches keyboard other binding

def trimEnd (label : String) : String := String.ofList (label.toList.rdropWhile isDartWhitespace)

def labelParts (label : String) : List String × String :=
  if trimEnd label = "" then ([], "+") else splitBinding (trimEnd label)

/-- The first key with the label, as it is read, is the key; and what comes before in the label is held. -/
def Readable (binding : SingleActivator κ) : Prop :=
  ((keyNamed keyboard (labelParts (keyboard.keyLabel binding.trigger)).2).map (canonicalKey keyboard)) =
      some (canonicalKey keyboard binding.trigger) ∧
    ∀ part ∈ (labelParts (keyboard.keyLabel binding.trigger)).1,
      keyboard.toLowerCase part ∈ binding.heldNames.map keyboard.toLowerCase

end Presses

end Portix.Terminal
