import Portix.Lib.Shell

/-!
# Reading a quoted command

A quoted value is read as one word, and the tokens of a command are those of its template with the values filled in.
-/

namespace Portix.Lib.Shell

namespace Token

end Token

namespace State

end State

theorem run_append (s : State) (text text' : List Char) :
    run s (text ++ text') = run (run s text) text' := List.foldl_append

example : lex "a=$(b 'x y')z 2>&1" = some
    [.subst "a=", .fixed "b", .value "x y", .closeSubst, .fixed "z", .number "2", .sign ">&",
      .fixed "1"] := by decide

theorem run_single (text : List Char) : ∀ (tokens : List Token) (word : List Piece) (stack : List Bool),
    run ⟨.single, tokens, some word, stack⟩ (text.flatMap fun c => if c = '\'' then ['\'', '\\', '\'', '\''] else [c]) =
      ⟨.single, tokens, some (word ++ text.map .quoted), stack⟩ := by
  induction text with
  | nil =>
    intro tokens word stack
    rw [List.map_nil, List.append_nil]
    rfl
  | cons c rest ih =>
    intro tokens word stack
    have hone : run ⟨.single, tokens, some word, stack⟩ (if c = '\'' then ['\'', '\\', '\'', '\''] else [c]) =
          ⟨.single, tokens, some (word ++ [.quoted c]), stack⟩ := by
      by_cases hc : c = '\''
      · rw [if_pos hc, hc]
        show (⟨.single, tokens, some (word ++ [.quoted '\''] ++ []), stack⟩ : State) = _
        rw [List.append_nil]
      · rw [if_neg hc]
        show (if c = '\'' then _ else _) = _
        rw [if_neg hc]
        rfl
    rw [List.flatMap_cons, run_append, hone, ih, List.append_assoc]
    rfl

theorem run_quote (tokens : List Token) (word : Option (List Piece)) (stack : List Bool) (value : String) :
    run ⟨.plain, tokens, word, stack⟩ (quote value).toList =
      ⟨.plain, tokens, some (word.getD [] ++ value.toList.map .quoted), stack⟩ := by
  unfold quote
  rw [String.toList_ofList, List.cons_append, ← List.singleton_append, run_append, run_append]
  show run (run ⟨.single, tokens, some (word.getD [] ++ []), stack⟩ _) _ = _
  rw [run_single, List.append_nil]
  rfl

theorem lex_quote (value : String) : lex (quote value) = some [.value value] := by
  unfold lex State.initial
  rw [run_quote]
  rfl

theorem Bare.append {text rest : String} (htext : Bare text) (hrest : ∀ c ∈ rest.toList, isBare c = true) :
    Bare (text ++ rest) := by
  unfold Bare
  rw [String.toList_append]
  refine ⟨List.append_ne_nil_of_left_ne_nil htext.1 _, fun c hc => ?_⟩
  rcases List.mem_append.mp hc with hmem | hmem
  · exact htext.2 c hmem
  · exact hrest c hmem

namespace Part

end Part

variable {values : List String} {s : State}

theorem fill_add (pieces : List Piece) : (s.add pieces).fill values =
    (s.fill values).add (pieces.flatMap (Piece.fill values)) := by
  obtain ⟨mode, tokens, word, stack⟩ := s
  cases word with
  | none => rfl
  | some word =>
    unfold State.add State.fill
    simp only [Option.getD_some, Option.map_some, List.flatMap_append]

theorem fill_enter (mode : Mode) : (s.enter mode).fill values = (s.fill values).enter mode := rfl

theorem fill_emit (text : List Char) : (s.emit (.op text)).fill values = (s.fill values).emit (.op text) := by
  unfold State.emit State.fill
  simp only [List.map_append, List.map_cons, List.map_nil, Token.fill]

theorem fill_delimit : s.delimit.fill values = (s.fill values).delimit := by
  obtain ⟨mode, tokens, word, stack⟩ := s
  cases word with
  | none => rfl
  | some word =>
    unfold State.delimit State.fill
    simp only [Option.map_some, Option.map_none, List.map_append, List.map_cons, List.map_nil, Token.fill]

theorem fill_openSubst (inDouble : Bool) : (s.openSubst inDouble).fill values = (s.fill values).openSubst inDouble := by
  obtain ⟨mode, tokens, word, stack⟩ := s
  cases word with
  | none =>
    unfold State.openSubst State.fill
    simp [Token.fill]
  | some word =>
    unfold State.openSubst State.fill
    simp [Token.fill]

theorem fill_close : s.close.fill values = (s.fill values).close := by
  have htokens : s.delimit.tokens.map (Token.fill values) = (s.fill values).delimit.tokens :=
    congrArg State.tokens fill_delimit
  obtain ⟨mode, tokens, word, stack⟩ := s
  cases stack with
  | nil =>
    show ((State.delimit _).enter _).fill values = (State.delimit _).enter _
    rw [fill_enter, fill_delimit]
  | cons inDouble stack =>
    unfold State.close
    rw [State.fill, List.map_append, htokens]
    rfl

theorem flatMap_fill_of_not_isOpen {word : List Piece} (hopen : State.isOpen word = false) :
    word.flatMap (Piece.fill values) = word := by
  have hall : ∀ piece ∈ word, Piece.fill values piece = [piece] := by
    intro piece hmem
    cases piece with
    | slot index inQuotes =>
      have hsome : State.isOpen word = true := List.any_eq_true.mpr ⟨_, hmem, rfl⟩
      rw [hopen] at hsome
      cases hsome
    | plain _ | quoted _ | param _ _ => rfl
  rw [List.flatMap_def, List.map_congr_left hall, ← List.flatMap_def, List.flatMap_singleton']

variable {c : Char}

theorem fill_redirect (hmode : (s.redirect c).mode ≠ .bad) : (s.redirect c).fill values =
    (s.fill values).redirect c := by
  obtain ⟨mode, tokens, word, stack⟩ := s
  cases word with
  | none => rfl
  | some word =>
    unfold State.redirect at hmode ⊢
    cases hopen : State.isOpen word with
    | true => simp [hopen, State.enter] at hmode
    | false =>
      have hword : word.flatMap (Piece.fill values) = word := flatMap_fill_of_not_isOpen hopen
      unfold State.fill
      simp only [Option.map_some, hword, hopen, Bool.false_eq_true, if_false]
      split <;> simp [Token.fill, hword]

theorem isNone_fill : (s.fill values).word.isNone = s.word.isNone := Option.isNone_map

theorem fill_ite {p : Prop} [Decidable p] {s s' t t' : State}
    (hs : s.mode ≠ .bad → s.fill values = s') (ht : t.mode ≠ .bad → t.fill values = t')
    (hmode : (if p then s else t).mode ≠ .bad) :
    (if p then s else t).fill values = if p then s' else t' := by
  by_cases hp : p
  · rw [if_pos hp] at hmode ⊢
    rw [if_pos hp, hs hmode]
  · rw [if_neg hp] at hmode ⊢
    rw [if_neg hp, ht hmode]

theorem fill_enter_add (pieces : List Piece) (mode : Mode) : ((s.add pieces).enter mode).fill values =
    ((s.fill values).add (pieces.flatMap (Piece.fill values))).enter mode := by
  rw [fill_enter, fill_add]

theorem fill_enter_delimit (mode : Mode) : (s.delimit.enter mode).fill values = (s.fill values).delimit.enter mode := by
  rw [fill_enter, fill_delimit]

theorem fill_enter_emit (text : List Char) (mode : Mode) : ((s.emit (.op text)).enter mode).fill values =
    ((s.fill values).emit (.op text)).enter mode := by
  rw [fill_enter, fill_emit]

theorem fill_stepPlain (hmode : (stepPlain s c).mode ≠ .bad) :
    (stepPlain s c).fill values = stepPlain (s.fill values) c := by
  unfold stepPlain at hmode ⊢
  rw [isNone_fill]
  refine fill_ite (fun _ => fill_enter_add [] _) (fill_ite (fun _ => fill_enter_add [] _) (fill_ite
    (fun _ => rfl) (fill_ite (fun _ => rfl) (fill_ite (fun _ => rfl) (fill_ite
    (fun _ => fill_enter_delimit _) (fill_ite (fun _ => ?_) (fill_ite (fun _ => fill_close) (fill_ite
    fill_redirect (fill_ite (fun _ => fill_enter_delimit _) (fill_ite (fun _ => rfl)
    fun _ => fill_enter_add [.plain c] _)))))))))) hmode
  rw [fill_enter_emit, fill_delimit]

theorem fill_stepDouble (hmode : (stepDouble s c).mode ≠ .bad) :
    (stepDouble s c).fill values = stepDouble (s.fill values) c := by
  unfold stepDouble at hmode ⊢
  exact fill_ite (fun _ => rfl) (fill_ite (fun _ => rfl) (fill_ite (fun _ => rfl) (fill_ite
    (fun _ => rfl) fun _ => fill_enter_add [.quoted c] _))) hmode

theorem fill_stepIn {inDouble : Bool} (hmode : (stepIn inDouble s c).mode ≠ .bad) :
    (stepIn inDouble s c).fill values = stepIn inDouble (s.fill values) c := by
  cases inDouble with
  | true => exact fill_stepDouble hmode
  | false => exact fill_stepPlain hmode

theorem fill_step (hmode : (step s c).mode ≠ .bad) : (step s c).fill values = step (s.fill values) c := by
  obtain ⟨mode, tokens, word, stack⟩ := s
  cases mode with
  | plain => exact fill_stepPlain hmode
  | double => exact fill_stepDouble hmode
  | escape => exact fill_ite (fun _ => rfl) (fun _ => fill_enter_add [.quoted c] _) hmode
  | single => exact fill_ite (fun _ => rfl) (fun _ => fill_add [.quoted c]) hmode
  | doubleEscape =>
    exact fill_ite (fun _ => fill_enter_add [.quoted c] _) (fill_ite (fun _ => rfl)
      fun _ => fill_enter_add [.quoted '\\', .quoted c] _) hmode
  | dollar inDouble =>
    have hsign : ([if inDouble then .quoted '$' else .plain '$'] : List Piece).flatMap
        (Piece.fill values) = [if inDouble then .quoted '$' else .plain '$'] := by
      cases inDouble <;> rfl
    refine fill_ite (fun _ => fill_openSubst inDouble) (fill_ite (fun _ => rfl) (fill_ite (fun _ => rfl)
      (fill_ite (fun _ => fill_enter_add [.param [c] inDouble] _) fun hrest => ?_))) hmode
    rw [fill_stepIn hrest, fill_add, hsign]
  | name text inDouble =>
    refine fill_ite (fun _ => rfl) (fun hrest => ?_) hmode
    rw [fill_stepIn hrest, fill_add]
    rfl
  | opened => exact fill_ite (fun _ => rfl) fill_stepPlain hmode
  | op text =>
    refine fill_ite (fun _ => fill_enter_emit _ _) (fill_ite (fun _ => rfl) fun hrest => ?_) hmode
    rw [fill_stepPlain hrest, fill_emit]
  | comment => exact fill_ite (fun _ => fill_enter_emit _ _) (fun _ => rfl) hmode
  | bad => exact absurd rfl hmode

theorem run_bad (text : List Char) : ∀ {s : State}, s.mode = .bad → (run s text).mode = .bad := by
  induction text with
  | nil => exact id
  | cons c rest ih =>
    intro s hmode
    apply ih
    unfold step
    rw [hmode]
    exact hmode

theorem fill_run (text : List Char) : ∀ {s : State}, (run s text).mode ≠ .bad →
    (run s text).fill values = run (s.fill values) text := by
  induction text with
  | nil =>
    intro s _
    rfl
  | cons c rest ih =>
    intro s hmode
    have hfirst : (step s c).mode ≠ .bad := fun hbad => hmode (run_bad rest hbad)
    show (run (step s c) rest).fill values = run (step (s.fill values) c) rest
    rw [ih hmode, fill_step hfirst]

theorem stepPlain_bare (hbare : isBare c = true) : stepPlain s c = (s.add [.plain c]).enter .plain := by
  unfold isBare at hbare
  simp only [List.mem_cons, List.not_mem_nil, or_false, not_or, Bool.not_eq_true',
    decide_eq_false_iff_not] at hbare
  unfold stepPlain
  simp only [hbare, false_and, or_self, if_false]

theorem run_bare (text : List Char) (hne : text ≠ []) : ∀ (tokens : List Token)
    (word : Option (List Piece)) (stack : List Bool), (∀ c ∈ text, isBare c = true) →
    run ⟨.plain, tokens, word, stack⟩ text = ⟨.plain, tokens, some (word.getD [] ++ text.map .plain), stack⟩ := by
  induction text with
  | nil => exact absurd rfl hne
  | cons c rest ih =>
    intro tokens word stack hbare
    have hstep : run ⟨.plain, tokens, word, stack⟩ [c] =
        ⟨.plain, tokens, some (word.getD [] ++ [.plain c]), stack⟩ := by
      show stepPlain _ c = _
      rw [stepPlain_bare (hbare c List.mem_cons_self)]
      rfl
    rw [← List.singleton_append, run_append, hstep]
    cases rest with
    | nil => rfl
    | cons d rest =>
      rw [ih (List.cons_ne_nil d rest) _ _ _ fun e he => hbare e (List.mem_cons_of_mem _ he),
        Option.getD_some, List.append_assoc]
      rfl

theorem run_render {part : Part} (hfits : part.Fits values) (hmode : (part.read s).mode ≠ .bad) :
    run (s.fill values) (part.render values) = (part.read s).fill values := by
  cases part with
  | text fixed => exact (fill_run fixed.toList hmode).symm
  | value index =>
    obtain ⟨mode, tokens, word, stack⟩ := s
    by_cases hplain : mode = .plain
    · obtain rfl := hplain
      show _ = (State.add _ [.slot index true]).fill values
      rw [fill_add]
      show run _ (quote _).toList = State.add _ ((valueAt values index).map .quoted ++ [])
      rw [List.append_nil]
      exact run_quote _ _ _ _
    · rw [Part.read, if_neg hplain] at hmode
      exact absurd rfl hmode
  | bare index =>
    obtain ⟨mode, tokens, word, stack⟩ := s
    by_cases hplain : mode = .plain
    · obtain rfl := hplain
      show _ = (State.add _ [.slot index false]).fill values
      rw [fill_add]
      show run _ (valueAt values index) = State.add _ ((valueAt values index).map .plain ++ [])
      rw [List.append_nil]
      exact run_bare _ hfits.1 _ _ _ hfits.2
    · rw [Part.read, if_neg hplain] at hmode
      exact absurd rfl hmode

theorem read_bad {part : Part} (hmode : s.mode = .bad) : (part.read s).mode = .bad := by
  have hplain : ¬s.mode = .plain := by
    rw [hmode]
    decide
  cases part with
  | text fixed => exact run_bad fixed.toList hmode
  | value index =>
    rw [Part.read, if_neg hplain]
    rfl
  | bare index =>
    rw [Part.read, if_neg hplain]
    rfl

theorem foldl_read_bad (parts : List Part) : ∀ {s : State}, s.mode = .bad → (parts.foldl Part.read s).mode = .bad := by
  induction parts with
  | nil => exact id
  | cons part rest ih => exact fun hmode => ih (read_bad hmode)

theorem run_parts (parts : List Part) : ∀ {s : State}, (∀ part ∈ parts, part.Fits values) →
    (parts.foldl Part.read s).mode ≠ .bad →
    run (s.fill values) (parts.flatMap (Part.render values)) = (parts.foldl Part.read s).fill values := by
  induction parts with
  | nil =>
    intro s _ _
    rfl
  | cons part rest ih =>
    intro s hfits hmode
    have hfirst : (part.read s).mode ≠ .bad := fun hbad => hmode (foldl_read_bad rest hbad)
    rw [List.flatMap_cons, run_append, run_render (hfits part List.mem_cons_self) hfirst]
    exact ih (fun part hmem => hfits part (List.mem_cons_of_mem _ hmem)) hmode

theorem finish_fill {tokens : List Token} (hfinish : s.finish = some tokens) :
    (s.fill values).finish = some (tokens.map (Token.fill values)) := by
  have hdelimit : ∀ s : State, (s.fill values).delimit.tokens =
      s.delimit.tokens.map (Token.fill values) := fun s => (congrArg State.tokens fill_delimit).symm
  obtain ⟨mode, rest, word, stack⟩ := s
  by_cases hstack : stack = []
  · obtain rfl := hstack
    cases mode with
    | plain | comment =>
      cases hfinish
      exact congrArg some (hdelimit _)
    | op text =>
      cases hfinish
      show some _ = some _
      rw [List.map_append]
      rfl
    | dollar inDouble =>
      cases inDouble with
      | true => cases hfinish
      | false =>
        cases hfinish
        show some ((State.fill values _).add _).delimit.tokens = _
        have hadd := @fill_add values ⟨.dollar false, rest, word, []⟩ [.plain '$']
        exact congrArg some ((congrArg (fun s => State.tokens (State.delimit s)) hadd.symm).trans
          (hdelimit _))
    | name text inDouble =>
      cases inDouble with
      | true => cases hfinish
      | false =>
        cases hfinish
        show some ((State.fill values _).add _).delimit.tokens = _
        have hadd := @fill_add values ⟨.name text false, rest, word, []⟩ [.param text false]
        exact congrArg some ((congrArg (fun s => State.tokens (State.delimit s)) hadd.symm).trans
          (hdelimit _))
    | escape | single | double | doubleEscape | opened | bad => cases hfinish
  · unfold State.finish at hfinish
    rw [if_neg hstack] at hfinish
    cases hfinish

theorem lex_of_template (command : String) (values : List String) (parts : List Part)
    {tokens : List Token} (hcommand : command.toList = parts.flatMap (Part.render values))
    (hfits : ∀ part ∈ parts, part.Fits values) (htokens : Part.tokens parts = some tokens) :
    lex command = some (tokens.map (Token.fill values)) := by
  have hmode : (parts.foldl Part.read .initial).mode ≠ .bad := by
    intro hbad
    unfold Part.tokens State.finish at htokens
    rw [hbad] at htokens
    split_ifs at htokens
  unfold lex
  rw [hcommand]
  show (run (State.fill values .initial) _).finish = _
  rw [run_parts parts hfits hmode]
  exact finish_fill htokens

theorem flatMap_fill_plain (text : List Char) : (text.map Piece.plain).flatMap (Piece.fill values) = text.map .plain :=
  flatMap_fill_of_not_isOpen (by simp [State.isOpen])

theorem flatMap_fill_quoted (text : List Char) :
    (text.map Piece.quoted).flatMap (Piece.fill values) = text.map .quoted :=
  flatMap_fill_of_not_isOpen (by simp [State.isOpen])

@[simp] theorem fill_fixed (text : String) : Token.fill values (.fixed text) = .fixed text :=
  congrArg Token.word (flatMap_fill_plain text.toList)

@[simp] theorem fill_value (text : String) : Token.fill values (.value text) = .value text :=
  congrArg Token.word (flatMap_fill_quoted text.toList)

@[simp] theorem fill_sign (text : String) : Token.fill values (.sign text) = .sign text := rfl

@[simp] theorem fill_slot (text : String) (index : Nat) :
    Token.fill values (.slot text index) = .fixedValue text (values.getD index "") := by
  unfold Token.slot Token.fixedValue
  rw [Token.fill, List.flatMap_append, flatMap_fill_plain, List.flatMap_singleton]
  rfl

@[simp] theorem fixedValue_empty (value : String) : Token.fixedValue "" value = .value value := rfl

@[simp] theorem fill_bareSlot (index : Nat) : Token.fill values (.bareSlot index) = .fixed (values.getD index "") := by
  unfold Token.bareSlot
  rw [Token.fill, List.flatMap_singleton]
  rfl

@[simp] theorem fill_parameter (name : String) (inDouble : Bool) :
    Token.fill values (.parameter name inDouble) = .parameter name inDouble := rfl

@[simp] theorem fill_word_nil : Token.fill values (.word []) = .word [] := rfl

@[simp] theorem fill_number (text : String) : Token.fill values (.number text) = .number text :=
  congrArg Token.ioNumber (flatMap_fill_plain text.toList)

@[simp] theorem fill_subst (before : String) : Token.fill values (.subst before) = .subst before :=
  congrArg (Token.openSubst · false) (flatMap_fill_plain before.toList)

@[simp] theorem fill_closeSubst : Token.fill values .closeSubst = .closeSubst := rfl

end Portix.Lib.Shell
