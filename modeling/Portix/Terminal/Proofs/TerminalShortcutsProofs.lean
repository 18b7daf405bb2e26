import Portix.Terminal.TerminalShortcuts

/-!
# A recorded shortcut and its text

What is printed of a binding is read back as the same shortcut exactly for the keys that the first key with their
label, as it is read, stands for. The space bar is not one of them: its label is cut off, and what is left is read
as the key `+`.
-/

namespace Portix.Terminal

open Lib

theorem plusParts_append (before after : List Char) : plusParts (String.ofList (before ++ '+' :: after)) =
      plusParts (String.ofList before) ++ plusParts (String.ofList after) := by
  unfold plusParts splitChar
  rw [String.toList_ofList, String.toList_ofList, String.toList_ofList, List.splitOn_append_cons_self,
    List.map_append, List.filter_append]

theorem plusParts_empty : plusParts (String.ofList []) = [] := by decide

/-- A name that can stand before a key. -/
def IsName (name : String) : Prop := name ≠ "" ∧ '+' ∉ name.toList

variable {text label : String}

theorem plusParts_name {name : String} (hname : IsName name) : plusParts name = [name] := by
  unfold plusParts splitChar
  rw [List.splitOn_eq_singleton hname.2, List.map_singleton, String.ofList_toList]
  exact List.filter_cons_of_pos (decide_eq_true hname.1)

theorem plusParts_ne_nil {character : Char} (hmem : character ∈ text.toList)
    (hplus : character ≠ '+') : plusParts text ≠ [] := by
  intro hnone
  refine hplus (eq_of_splitOn_empty (fun piece hpiece => ?_) character hmem)
  have hempty := List.filter_eq_nil_iff.mp hnone _ (List.mem_map_of_mem hpiece)
  simpa using hempty

theorem endsWith_iff : endsWith text '+' = true ↔ ∃ before, text = String.ofList (before ++ ['+']) := by
  unfold endsWith
  rw [beq_iff_eq, List.getLast?_eq_some_iff]
  constructor
  · rintro ⟨before, htext⟩
    exact ⟨before, by rw [← htext, String.ofList_toList]⟩
  · rintro ⟨before, rfl⟩
    exact ⟨before, String.toList_ofList⟩

theorem splitBinding_of_plus (hplus : endsWith text '+' = true) :
    splitBinding text = (plusParts text, "+") := by
  unfold splitBinding
  rw [if_pos hplus]
  obtain ⟨before, rfl⟩ := endsWith_iff.mp hplus
  rw [dropEnd, String.toList_ofList, List.dropLast_concat, plusParts_append, plusParts_empty, List.append_nil]

def ledNames (names : List String) : List Char := names.flatMap fun name => name.toList ++ ['+']

theorem ledNames_cons (name : String) (names : List String) (label : List Char) :
    ledNames (name :: names) ++ label = name.toList ++ '+' :: (ledNames names ++ label) := by
  simp [ledNames]

theorem toList_join (names : List String) (label : String) :
    ("+".intercalate (names ++ [label])).toList = ledNames names ++ label.toList := by
  induction names with
  | nil => simp [ledNames]
  | cons name names ih =>
    rw [List.cons_append, String.intercalate_cons_of_ne_nil (by simp), ledNames_cons, ← ih]
    simp

variable {names : List String}

theorem plusParts_led (hnames : ∀ name ∈ names, IsName name) (label : List Char) :
    plusParts (String.ofList (ledNames names ++ label)) = names ++ plusParts (String.ofList label) := by
  induction names with
  | nil => rfl
  | cons name names ih =>
    rw [ledNames_cons, plusParts_append, String.ofList_toList, plusParts_name (hnames name List.mem_cons_self),
      ih fun other hother => hnames other (List.mem_cons_of_mem _ hother)]
    rfl

theorem ledNames_eq_concat (hne : names ≠ []) : ∃ before, ledNames names = before ++ ['+'] := by
  obtain ⟨rest, name, rfl⟩ := List.eq_nil_or_concat names |>.resolve_left hne
  exact ⟨ledNames rest ++ name.toList, by simp [ledNames]⟩

theorem dartTrim_join (hne : names ≠ [])
    (hfirst : ∀ name ∈ names, ∃ c cs, name.toList = c :: cs ∧ isDartWhitespace c = false) (label : String) :
    (dartTrim ("+".intercalate (names ++ [label]))).toList = ledNames names ++ (trimEnd label).toList := by
  obtain ⟨name, rest, rfl⟩ := List.exists_cons_of_ne_nil hne
  obtain ⟨c, cs, hname, hc⟩ := hfirst name List.mem_cons_self
  have hhead : ("+".intercalate (name :: rest ++ [label])).toList =
      c :: (cs ++ '+' :: (ledNames rest ++ label.toList)) := by
    rw [toList_join, ledNames_cons, hname]
    rfl
  rw [dartTrim, toList_trimBy_of_head hhead hc, toList_join, trimEnd, String.toList_ofList]
  by_cases hlabel : label.toList.rdropWhile isDartWhitespace = []
  · rw [rdropWhile_append_of_nil hlabel, hlabel, List.append_nil]
    obtain ⟨before, hbefore⟩ := ledNames_eq_concat hne
    rw [hbefore]
    exact List.rdropWhile_concat_neg _ _ _ (by decide)
  · exact rdropWhile_append hlabel

theorem splitBinding_led (hne : names ≠ []) (hnames : ∀ name ∈ names, IsName name)
    (htext : text.toList = ledNames names ++ (trimEnd label).toList) :
    splitBinding text = (names ++ (labelParts label).1, (labelParts label).2) := by
  have heq : text = String.ofList (ledNames names ++ (trimEnd label).toList) := by
    rw [← htext, String.ofList_toList]
  have hparts : plusParts text = names ++ plusParts (trimEnd label) := by
    rw [heq, plusParts_led hnames, String.ofList_toList]
  unfold labelParts
  by_cases hempty : trimEnd label = ""
  · -- Nothing is left of the label: the text ends with the `+` after the last name.
    rw [if_pos hempty]
    rw [hempty] at heq hparts
    obtain ⟨before, hbefore⟩ := ledNames_eq_concat hne
    have hplus : endsWith text '+' = true := endsWith_iff.mpr ⟨before, by rw [heq, hbefore]; simp⟩
    rw [splitBinding_of_plus hplus, hparts]
    rfl
  · rw [if_neg hempty]
    have hlast : text.toList.getLast? = (trimEnd label).toList.getLast? := by
      rw [htext]
      exact List.getLast?_append_of_ne_nil _ fun hnil => hempty (String.toList_eq_nil_iff.mp hnil)
    by_cases hplus : endsWith (trimEnd label) '+' = true
    · have hends : endsWith text '+' = true := by
        unfold endsWith at hplus ⊢
        rw [hlast, hplus]
      rw [splitBinding_of_plus hends, splitBinding_of_plus hplus, hparts]
    · have hends : ¬ endsWith text '+' = true := by
        unfold endsWith at hplus ⊢
        rw [hlast]
        exact hplus
      have hkey : plusParts (trimEnd label) ≠ [] := by
        cases hchar : (trimEnd label).toList.getLast? with
        | none => exact absurd (String.toList_eq_nil_iff.mp (List.getLast?_eq_none_iff.mp hchar)) hempty
        | some character =>
          refine plusParts_ne_nil (List.mem_of_getLast? hchar) fun hcharacter => hplus ?_
          rw [endsWith, hchar, hcharacter]
          rfl
      unfold splitBinding
      rw [if_neg hends, if_neg hplus, hparts, List.dropLast_append_of_ne_nil hkey, List.getLastD_eq_getLast?,
        List.getLastD_eq_getLast?, List.getLast?_append_of_ne_nil _ hkey]

section Modifiers

variable {κ : Type} (keyboard : Keyboard κ)

theorem lowered_held (binding : SingleActivator κ) : binding.heldNames.map keyboard.toLowerCase =
      (if binding.control then ["ctrl"] else []) ++ (if binding.shift then ["shift"] else []) ++
        (if binding.alt then ["alt"] else []) ++ (if binding.metaKey then ["cmd"] else []) := by
  unfold SingleActivator.heldNames
  rw [List.map_append, List.map_append, List.map_append, apply_ite (List.map _), apply_ite (List.map _),
    apply_ite (List.map _), apply_ite (List.map _)]
  simp only [List.map_cons, List.map_nil, keyboard.lower_ctrl, keyboard.lower_shift, keyboard.lower_alt,
    keyboard.lower_cmd]

theorem activator_lowered (binding : SingleActivator κ) (key : κ) :
    activator key (binding.heldNames.map keyboard.toLowerCase) = { binding with trigger := key } := by
  rw [lowered_held]
  obtain ⟨trigger, control, shift, alt, metaKey⟩ := binding
  cases control <;> cases shift <;> cases alt <;> cases metaKey <;> simp [activator]

theorem lowered_all (binding : SingleActivator κ) :
    ∀ name ∈ binding.heldNames.map keyboard.toLowerCase, name ∈ modifierNames := by
  rw [lowered_held]
  obtain ⟨trigger, control, shift, alt, metaKey⟩ := binding
  cases control <;> cases shift <;> cases alt <;> cases metaKey <;> simp [modifierNames]

theorem activator_congr {mods mods' : List String} (hmods : ∀ name ∈ modifierNames, name ∈ mods ↔ name ∈ mods')
    (key : κ) : activator key mods = activator key mods' := by
  have hflag : ∀ name ∈ modifierNames, mods.contains name = mods'.contains name := by
    intro name hname
    rw [Bool.eq_iff_iff, List.contains_iff_mem, List.contains_iff_mem]
    exact hmods name hname
  unfold activator
  rw [hflag "ctrl" (by decide), hflag "shift" (by decide), hflag "alt" (by decide), hflag "cmd" (by decide)]

theorem mem_iff_of_activator {mods mods' : List String} {key key' : κ}
    (hcontrol : (activator key mods).control = (activator key' mods').control)
    (hshift : (activator key mods).shift = (activator key' mods').shift)
    (halt : (activator key mods).alt = (activator key' mods').alt)
    (hmeta : (activator key mods).metaKey = (activator key' mods').metaKey) :
    ∀ name ∈ modifierNames, name ∈ mods ↔ name ∈ mods' := by
  intro name hname
  simp only [modifierNames, List.mem_cons, List.not_mem_nil, or_false] at hname
  rw [← List.contains_iff_mem, ← List.contains_iff_mem, ← Bool.eq_iff_iff]
  rcases hname with rfl | rfl | rfl | rfl
  · exact hcontrol
  · exact hshift
  · exact halt
  · exact hmeta

theorem heldNames_isName (binding : SingleActivator κ) : ∀ name ∈ binding.heldNames, IsName name ∧
    ∃ c cs, name.toList = c :: cs ∧ isDartWhitespace c = false := by
  intro name hname
  have hone : name = "Ctrl" ∨ name = "Shift" ∨ name = "Alt" ∨ name = "Cmd" := by
    obtain ⟨trigger, control, shift, alt, metaKey⟩ := binding
    cases control <;> cases shift <;> cases alt <;> cases metaKey <;>
      simp [SingleActivator.heldNames] at hname ⊢ <;> tauto
  rcases hone with rfl | rfl | rfl | rfl
  · exact ⟨⟨by decide, by decide⟩, 'C', ['t', 'r', 'l'], rfl, by decide⟩
  · exact ⟨⟨by decide, by decide⟩, 'S', ['h', 'i', 'f', 't'], rfl, by decide⟩
  · exact ⟨⟨by decide, by decide⟩, 'A', ['l', 't'], rfl, by decide⟩
  · exact ⟨⟨by decide, by decide⟩, 'C', ['m', 'd'], rfl, by decide⟩

end Modifiers

section Reading

variable {κ : Type} (keyboard : Keyboard κ) {binding : SingleActivator κ}

theorem parseBinding_formatBinding (hheld : binding.heldNames ≠ []) :
    parseBinding keyboard (some (formatBinding keyboard binding)) =
      readParts keyboard (binding.heldNames ++ (labelParts (keyboard.keyLabel binding.trigger)).1)
        (labelParts (keyboard.keyLabel binding.trigger)).2 := by
  have hnames := heldNames_isName binding
  have htext := dartTrim_join hheld (fun name hname => (hnames name hname).2) (keyboard.keyLabel binding.trigger)
  have hsplit := splitBinding_led hheld (fun name hname => (hnames name hname).1) htext
  have hsome : dartTrim (formatBinding keyboard binding) ≠ "" := by
    intro hnone
    obtain ⟨before, hbefore⟩ := ledNames_eq_concat hheld
    rw [← formatBinding, hnone, hbefore] at htext
    simp at htext
  unfold parseBinding
  rw [Option.getD_some, if_neg hsome, formatBinding, hsplit]

theorem readParts_eq_some_iff {parts : List String} :
    readParts keyboard parts label = some binding ↔ (∀ part ∈ parts, keyboard.toLowerCase part ∈ modifierNames) ∧
      ∃ key, keyNamed keyboard label = some key ∧ activator key (parts.map keyboard.toLowerCase) = binding := by
  have hall : (parts.map keyboard.toLowerCase).all modifierNames.contains = true ↔
      ∀ part ∈ parts, keyboard.toLowerCase part ∈ modifierNames := by
    rw [List.all_map, List.all_eq_true]
    exact forall₂_congr fun part _ => List.contains_iff_mem
  unfold readParts
  split
  case isTrue hmods => rw [Option.map_eq_some_iff, and_iff_right (hall.mp hmods)]
  case isFalse hmods =>
    constructor
    · exact fun hread => nomatch hread
    · exact fun hread => absurd (hall.mpr hread.1) hmods

theorem heldNames_ne_nil [DecidableEq κ] {others : List (SingleActivator κ)}
    (haccepts : accepts keyboard others binding = true) : binding.heldNames ≠ [] := by
  have hheld : binding.control || binding.alt || binding.metaKey := by
    simp only [accepts, Bool.and_eq_true] at haccepts
    exact haccepts.1.2
  obtain ⟨trigger, control, shift, alt, metaKey⟩ := binding
  cases control <;> cases shift <;> cases alt <;> cases metaKey <;> simp_all [SingleActivator.heldNames]

variable [DecidableEq κ]

theorem matches_same_iff {binding binding' : SingleActivator κ} :
    (∀ press, bindingMatches keyboard binding' press = bindingMatches keyboard binding press) ↔
      canonicalKey keyboard binding'.trigger = canonicalKey keyboard binding.trigger ∧
        binding'.control = binding.control ∧ binding'.shift = binding.shift ∧ binding'.alt = binding.alt ∧
        binding'.metaKey = binding.metaKey := by
  constructor
  · intro hsame
    have hself : bindingMatches keyboard binding binding = true := by simp [bindingMatches]
    have hmatches := (hsame binding).trans hself
    simp only [bindingMatches, Bool.and_eq_true, decide_eq_true_eq, beq_iff_eq] at hmatches
    obtain ⟨⟨⟨⟨hkey, hcontrol⟩, hshift⟩, halt⟩, hmeta⟩ := hmatches
    exact ⟨hkey, hcontrol, hshift, halt, hmeta⟩
  · rintro ⟨hkey, hcontrol, hshift, halt, hmeta⟩ press
    rw [bindingMatches, bindingMatches, hkey, hcontrol, hshift, halt, hmeta]

/-- What is read of a text with the names of the modifiers that are held is the same shortcut exactly when the label
is read as the key, and what comes before in it as some of these modifiers. -/
theorem read_same_iff {parts : List String} :
    (∃ read, readParts keyboard (binding.heldNames ++ parts) label = some read ∧
        ∀ press, bindingMatches keyboard read press = bindingMatches keyboard binding press) ↔
      (keyNamed keyboard label).map (canonicalKey keyboard) = some (canonicalKey keyboard binding.trigger) ∧
        ∀ part ∈ parts, keyboard.toLowerCase part ∈ binding.heldNames.map keyboard.toLowerCase := by
  have hbinding := activator_lowered keyboard binding binding.trigger
  constructor
  · rintro ⟨read, hread, hsame⟩
    obtain ⟨hmods, key, hkey, rfl⟩ := (readParts_eq_some_iff keyboard).mp hread
    obtain ⟨htrigger, hcontrol, hshift, halt, hmeta⟩ := (matches_same_iff keyboard).mp hsame
    have hheld := mem_iff_of_activator (hcontrol.trans (congrArg (·.control) hbinding.symm))
      (hshift.trans (congrArg (·.shift) hbinding.symm)) (halt.trans (congrArg (·.alt) hbinding.symm))
      (hmeta.trans (congrArg (·.metaKey) hbinding.symm))
    refine ⟨by rw [hkey, ← htrigger]; rfl, fun part hpart => ?_⟩
    refine (hheld _ (hmods part (List.mem_append_right _ hpart))).mp ?_
    exact List.mem_map_of_mem (List.mem_append_right _ hpart)
  · rintro ⟨htrigger, hparts⟩
    obtain ⟨key, hkey, hcanonical⟩ := Option.map_eq_some_iff.mp htrigger
    have hlowered := lowered_all keyboard binding
    refine ⟨_, (readParts_eq_some_iff keyboard).mpr ⟨fun part hpart => ?_, key, hkey, rfl⟩, ?_⟩
    · rcases List.mem_append.mp hpart with hpart | hpart
      · exact hlowered _ (List.mem_map_of_mem hpart)
      · exact hlowered _ (hparts part hpart)
    · have hmods : ∀ name ∈ modifierNames, name ∈ (binding.heldNames ++ parts).map keyboard.toLowerCase ↔
          name ∈ binding.heldNames.map keyboard.toLowerCase := by
        intro name _
        rw [List.map_append, List.mem_append, or_iff_left_iff_imp]
        rintro hname
        obtain ⟨part, hpart, rfl⟩ := List.mem_map.mp hname
        exact hparts part hpart
      rw [activator_congr hmods, activator_lowered]
      exact (matches_same_iff keyboard).mpr ⟨hcanonical, rfl, rfl, rfl, rfl⟩

/-- A recorded shortcut is read back as itself exactly when its label is read as its key. -/
theorem shortcut_reloads_iff {others : List (SingleActivator κ)} {binding : SingleActivator κ}
    (haccepts : accepts keyboard others binding = true) :
    (∃ read, parseBinding keyboard (some (formatBinding keyboard binding)) = some read ∧
        ∀ press, bindingMatches keyboard read press = bindingMatches keyboard binding press) ↔
      Readable keyboard binding := by
  rw [parseBinding_formatBinding keyboard (heldNames_ne_nil keyboard haccepts)]
  exact read_same_iff keyboard

end Reading

def plainKeyboard : Keyboard String where
  keyLabel label := label
  knownLogicalKeys := [" ", "+", "-", "0", "=", "G", "Escape", "Numpad 0", "Numpad Add", "Control Left"]
  toLowerCase text := String.ofList (text.toList.map Char.toLower)
  lower_ctrl := by decide
  lower_shift := by decide
  lower_alt := by decide
  lower_cmd := by decide
  add := "+"
  numpadAdd := "Numpad Add"
  equal := "="
  underscore := "_"
  numpadSubtract := "Numpad Subtract"
  minus := "-"
  parenthesisRight := ")"
  numpad0 := "Numpad 0"
  digit0 := "0"
  escape := "Escape"
  modifierKeys := ["Control Left", "Shift Left", "Alt Left", "Meta Left"]

def altG : SingleActivator String where
  trigger := "G"
  control := true
  alt := true

def controlSpace : SingleActivator String where
  trigger := " "
  control := true

theorem shortcut_reloads_letter :
    accepts plainKeyboard [] altG = true ∧
      ((∃ read, parseBinding plainKeyboard (some (formatBinding plainKeyboard altG)) = some read ∧
          ∀ press, bindingMatches plainKeyboard read press = bindingMatches plainKeyboard altG press) ↔
        Readable plainKeyboard altG) :=
  have haccepts : accepts plainKeyboard [] altG = true := by decide
  ⟨haccepts, shortcut_reloads_iff plainKeyboard haccepts⟩

/-- The space bar is read back as the key `+`. -/
theorem space_read_as_plus :
    accepts plainKeyboard [] controlSpace = true ∧
      ¬ ∃ read, parseBinding plainKeyboard (some (formatBinding plainKeyboard controlSpace)) = some read ∧
        ∀ press, bindingMatches plainKeyboard read press = bindingMatches plainKeyboard controlSpace press := by
  refine ⟨by decide, ?_⟩
  rintro ⟨read, hread, hsame⟩
  have hplus : (parseBinding plainKeyboard (some (formatBinding plainKeyboard controlSpace))).map
      (fun read => bindingMatches plainKeyboard read controlSpace) = some false := by decide
  rw [hread, Option.map_some, hsame] at hplus
  exact absurd hplus (by decide)

end Portix.Terminal
