import FieldWiring.Proofs.Types.Grammar

/-!
# What copiers write

A copier is followed from the lexemes it begins with to those it leaves, and what it writes is
told by its spelling.  The steps of a copier are put together in the order in which it takes
them, and its repetitions and lists by an induction on the lexemes that remain.
-/

namespace FieldWiring.Source.Arrangement

variable {α β : Type} {copier first : Copier α} {next : α → Copier β} {value result : α}
  {result' : β} {before middle after rest : List Lexeme} {text text' : List Char} {form : Form}

/-! ## What copiers write -/

/-- The copier gets from these lexemes to those, and writes this text. -/
def Writes (copier : Copier α) (before after : List Lexeme) (result : α) (text : List Char) :
    Prop :=
  ∃ copy, spelled copy = text ∧ ∀ written,
    copier.run ⟨before, written⟩ = some (result, ⟨after, copy.reverse ++ written⟩)

theorem Writes.pure (value : α) (rest : List Lexeme) :
    Writes (pure value : Copier α) rest rest value [] :=
  ⟨[], rfl, fun _ => rfl⟩

/-- Copiers write one after the other. -/
theorem Writes.bind (hfirst : Writes first before middle value text)
    (hnext : Writes (next value) middle after result' text') :
    Writes (first >>= next) before after result' (text ++ text') := by
  obtain ⟨copy, hcopy, hrun⟩ := hfirst
  obtain ⟨copy', hcopy', hrun'⟩ := hnext
  refine ⟨copy ++ copy', ?_, ?_⟩
  · rw [spelled_append, hcopy, hcopy']
  · intro written
    rw [StateT.run_bind, hrun]
    change (next value).run _ = _
    rw [hrun', List.reverse_append, List.append_assoc]

/-- What takes nothing and writes nothing only finds something out. -/
theorem Writes.bind_right (hfirst : Writes first before middle value [])
    (hnext : Writes (next value) middle after result' text) :
    Writes (first >>= next) before after result' text := hfirst.bind hnext

theorem Writes.bind_left (hfirst : Writes first before middle value text)
    (hnext : Writes (next value) middle after result' []) :
    Writes (first >>= next) before after result' text := by
  simpa only [List.append_nil] using hfirst.bind hnext

/-- A copier that copies one lexeme goes on as another copier. -/
theorem Writes.of_cons (other : Copier α) {lexeme : Lexeme}
    (hrun : ∀ written, copier.run ⟨lexeme :: before, written⟩ =
      other.run ⟨before, lexeme :: written⟩)
    (hother : Writes other before after result text) :
    Writes copier (lexeme :: before) after result (lexeme.spelling ++ text) := by
  obtain ⟨copy, hcopy, hother⟩ := hother
  refine ⟨lexeme :: copy, ?_, ?_⟩
  · rw [spelled_cons, hcopy]
  · intro written
    rw [hrun, hother, List.reverse_cons, List.append_assoc, List.singleton_append]

theorem writes_ahead (rest : List Lexeme) : Writes ahead rest rest rest [] :=
  ⟨[], rfl, fun _ => rfl⟩

theorem writes_isAt (form : Form) (rest : List Lexeme) :
    Writes (isAt form) rest rest (form.begins rest) [] := ⟨[], rfl, fun _ => rfl⟩

theorem writes_isAtAny (forms : List Form) (rest : List Lexeme) :
    Writes (isAtAny forms) rest rest (forms.any fun form => form.begins rest) [] :=
  ⟨[], rfl, fun _ => rfl⟩

theorem writes_isAtAll (forms : List Form) (rest : List Lexeme) :
    Writes (isAtAll forms) rest rest (beginWith forms rest) [] := ⟨[], rfl, fun _ => rfl⟩

theorem writes_isAtEnd (rest : List Lexeme) :
    Writes isAtEnd rest rest (rest.isEmpty || Form.closing.begins rest) [] :=
  ⟨[], rfl, fun _ => rfl⟩

theorem writes_isAt_of {value : Bool} (hvalue : form.begins rest = value) :
    Writes (isAt form) rest rest value [] := hvalue ▸ writes_isAt form rest

theorem writes_isAtAny_of {forms : List Form} {value : Bool}
    (hvalue : (forms.any fun form => form.begins rest) = value) :
    Writes (isAtAny forms) rest rest value [] := hvalue ▸ writes_isAtAny forms rest

theorem writes_isAtAll_of {forms : List Form} {value : Bool}
    (hvalue : beginWith forms rest = value) :
    Writes (isAtAll forms) rest rest value [] := hvalue ▸ writes_isAtAll forms rest

/-! ## Forms -/

/-- The lexemes are the form, whatever follows them. -/
structure IsFormed (form : Form) (lexemes : List Lexeme) : Prop where
  length : lexemes.length = form.length
  begins : ∀ rest, form.begins (lexemes ++ rest) = true

theorem writes_copyIf_of_not (hnot : form.begins rest = false) :
    Writes (copyIf form) rest rest false [] := by
  refine ⟨[], rfl, ?_⟩
  intro written
  rw [run_copyIf]
  simp [hnot]

theorem writes_skipIf_of_not (hnot : form.begins rest = false) :
    Writes (skipIf form) rest rest false [] := by
  refine ⟨[], rfl, ?_⟩
  intro written
  rw [run_skipIf]
  simp [hnot]

variable {lexemes : List Lexeme}

theorem IsFormed.drop (hform : IsFormed form lexemes) (rest : List Lexeme) :
    (lexemes ++ rest).drop form.length = rest := by
  rw [← hform.length, List.drop_left]

theorem IsFormed.take (hform : IsFormed form lexemes) (rest : List Lexeme) :
    (lexemes ++ rest).take form.length = lexemes := by
  rw [← hform.length, List.take_left]

/-- A form that is present is copied as it is spelled. -/
theorem IsFormed.writes_copyIf (hform : IsFormed form lexemes) (rest : List Lexeme) :
    Writes (copyIf form) (lexemes ++ rest) rest true (spelled lexemes) := by
  refine ⟨lexemes, rfl, ?_⟩
  intro written
  rw [run_copyIf, hform.begins, if_pos rfl, hform.drop, hform.take]

theorem IsFormed.writes_copy (hform : IsFormed form lexemes) (rest : List Lexeme) :
    Writes (copy form) (lexemes ++ rest) rest () (spelled lexemes) := by
  refine ⟨lexemes, rfl, ?_⟩
  intro written
  have hbegins := hform.begins rest
  simp [copy, isAt, ahead, hbegins, copyLexemes, write, leaveOut, guard, hform.drop, hform.take]

theorem IsFormed.writes_skipIf (hform : IsFormed form lexemes) (rest : List Lexeme) :
    Writes (skipIf form) (lexemes ++ rest) rest true [] := by
  refine ⟨[], rfl, ?_⟩
  intro written
  rw [run_skipIf, hform.begins, if_pos rfl, hform.drop]
  rfl

theorem IsFormed.writes_skip (hform : IsFormed form lexemes) (rest : List Lexeme) :
    Writes (skip form) (lexemes ++ rest) rest () [] := by
  refine ⟨[], rfl, ?_⟩
  intro written
  have hbegins := hform.begins rest
  simp [skip, isAt, ahead, hbegins, leaveOut, guard, hform.drop]

theorem isFormed_sign {symbol : Char} (sign : String) (hsign : sign.toList = [symbol])
    (joined : Bool) : IsFormed (.sign sign) [markOf symbol joined] where
  length := by
    rw [Form.length, ← String.length_toList, hsign]
    rfl
  begins rest := by
    rw [Form.begins, hsign]
    simp [beginsWithSign, markOf]

theorem isFormed_colons (joined : Bool) : IsFormed (.sign "::") (colons joined) :=
  ⟨rfl, fun _ => rfl⟩

theorem isFormed_keyword (spelling : String) : IsFormed (.word spelling) [keyword spelling] where
  length := rfl
  begins rest := by simp [Form.begins, Form.isFormOf, keyword, wordOf]

theorem isFormed_lifetime (name : List Char) : IsFormed .lifetime [lifetimeOf name] :=
  ⟨rfl, fun _ => rfl⟩

theorem isFormed_name {name : List Char} (hname : IsName name) :
    IsFormed .name [wordOf name] where
  length := rfl
  begins rest := by simpa [Form.begins, Form.isFormOf, wordOf, IsName] using hname

theorem isFormed_opening (bracket : Char) :
    IsFormed (.opening bracket) [openingOf bracket] where
  length := rfl
  begins rest := by simp [Form.begins, Form.isFormOf, openingOf]

theorem isFormed_closing (closing : Char) : IsFormed .closing [closingOf closing] :=
  ⟨rfl, fun _ => rfl⟩

/-- Brackets are copied with what their content is copied as. -/
theorem Writes.bracketed {content : Copier α} {bracket closing : Char}
    (hcontent : Writes content lexemes (closingOf closing :: rest) result text) :
    Writes (bracketed bracket content) (openingOf bracket :: lexemes) rest result
      (bracket :: text ++ [closing]) := by
  have hopened := (isFormed_opening bracket).writes_copy lexemes
  have hclosed := (isFormed_closing closing).writes_copy rest
  exact hopened.bind (hcontent.bind (hclosed.bind_left (.pure result rest)))

/-! ## Repetition -/

/-- The step goes on, taking something each time, until it says that it is the last. -/
inductive Repeats (step : Copier Bool) (after : List Lexeme) : List Lexeme → List Char → Prop where
  | last {before : List Lexeme} {text : List Char} (hstep : Writes step before after false text) :
      Repeats step after before text
  | more {before middle : List Lexeme} {text text' : List Char}
      (hshorter : middle.length < before.length) (hstep : Writes step before middle true text)
      (hrepeats : Repeats step after middle text') : Repeats step after before (text ++ text')

theorem Repeats.repeatUpTo {step : Copier Bool} (hrepeats : Repeats step after before text)
    {fuel : Nat} (hfuel : before.length < fuel) :
    Writes (repeatUpTo step fuel) before after () text := by
  induction hrepeats generalizing fuel with
  | last hstep =>
      obtain ⟨fuel, rfl⟩ := Nat.exists_eq_add_one_of_ne_zero (Nat.ne_zero_of_lt hfuel)
      exact hstep.bind_left (.pure () after)
  | more hshorter hstep hrepeats ih =>
      obtain ⟨fuel, rfl⟩ := Nat.exists_eq_add_one_of_ne_zero (Nat.ne_zero_of_lt hfuel)
      exact hstep.bind (ih (by omega))

/-- There is room for as many steps as lexemes. -/
theorem Repeats.repeating {step : Copier Bool} (hrepeats : Repeats step after before text) :
    Writes (repeating step) before after () text :=
  hrepeats.repeatUpTo (Nat.lt_succ_self _)

theorem writes_outerAttributes_none (hends : (Form.sign "#").begins rest = false) :
    Writes (outerAttributes grammar) rest rest () [] := by
  apply Repeats.repeating
  have hnone : beginWith [.sign "#", .opening '['] rest = false := by
    rw [beginWith, hends, Bool.false_and]
  exact .last ((writes_isAtAll_of hnone).bind_right (.pure false rest))

/-! ## Lists -/

/-- A list does not end here. -/
def IsOngoing (lexemes : List Lexeme) : Prop :=
  (lexemes.isEmpty || Form.closing.begins lexemes) = false

/-- A list of items with commas between them ends where the closing bracket stands. -/
inductive Lists (item : Copier Unit) (after : List Lexeme) : List Lexeme → List Char → Prop where
  | nil : Lists item after after []
  | last {before : List Lexeme} {text : List Char} (hongoing : IsOngoing before)
      (hitem : Writes item before after () text) : Lists item after before text
  | cons (joined : Bool) {before middle : List Lexeme} {text text' : List Char}
      (hongoing : IsOngoing before) (hshorter : middle.length < before.length)
      (hitem : Writes item before (markOf ',' joined :: middle) () text)
      (hlists : Lists item after middle text') : Lists item after before (text ++ ',' :: text')

/-- A list is copied with its commas, up to its end. -/
theorem Lists.listOf {item : Copier Unit} (hlists : Lists item after before text)
    (hend : (after.isEmpty || Form.closing.begins after) = true) :
    Writes (listOf item) before after () text := by
  apply Repeats.repeating
  have hatEnd : Writes isAtEnd after after true [] := hend ▸ writes_isAtEnd after
  induction hlists with
  | nil => exact .last (hatEnd.bind_right (.pure false after))
  | @last before text hongoing hitem =>
      have hnotAtEnd := hongoing ▸ writes_isAtEnd before
      exact .last (hnotAtEnd.bind_right (hitem.bind_left (hatEnd.bind_right (.pure false after))))
  | @cons joined before middle text text' hongoing hshorter hitem hlists ih =>
      have hnotAtEnd := hongoing ▸ writes_isAtEnd before
      have hcomma := (isFormed_sign "," rfl joined).writes_copy middle
      have hbehind := writes_isAtEnd (markOf ',' joined :: middle)
      have htext : text ++ ',' :: text' = (text ++ [',']) ++ text' := by simp
      rw [htext]
      refine .more hshorter (hnotAtEnd.bind_right (hitem.bind ?_)) ih
      exact hbehind.bind_right (hcomma.bind_left (.pure true middle))

/-! ## Captures -/

/-- What is captured is not written. -/
theorem Writes.captured (hpart : Writes copier before after result text) :
    ∃ lexemes, spelled lexemes = text ∧
      Writes (captured copier) before after (result, lexemes) [] := by
  obtain ⟨copy, hcopy, hrun⟩ := hpart
  refine ⟨copy, hcopy, [], rfl, ?_⟩
  intro written
  have hpart : copier.run ⟨before, []⟩ = some (result, ⟨after, copy.reverse⟩) := by
    rw [hrun, List.append_nil]
  simp [Arrangement.captured, hpart]

/-- A part that does not stand for itself is copied. -/
theorem Writes.asItStandsIf {property : α → Bool} (hpart : Writes copier before after result text)
    (hproperty : property result = false) :
    Writes (asItStandsIf property copier) before after result text := by
  obtain ⟨copy, hcopy, hrun⟩ := hpart
  refine ⟨copy, hcopy, ?_⟩
  intro written
  simp [Arrangement.asItStandsIf, hrun, hproperty]

theorem Writes.asItStandsOr {part : Copier Bool} (hpart : Writes part before after false text) :
    Writes (asItStandsOr part) before after () text :=
  Writes.bind_left (hpart.asItStandsIf rfl) (.pure () after)

/-! ## Arguments in angle brackets -/

/-- An argument as it is printed. -/
def Argument.generic (argument : Argument) : GenericArgument :=
  ⟨spelled argument.lexemes, argument.isLifetime⟩

/-- A list of arguments up to its angle bracket; whether a comma ends it. -/
inductive ArgumentLists (argument : Copier Bool) (after : List Lexeme) :
    List Lexeme → List Argument → Bool → Prop where
  | nil (joined : Bool) : ArgumentLists argument after (markOf '>' joined :: after) [] false
  | last (joined : Bool) {before lexemes : List Lexeme} {isLifetime : Bool}
      (hongoing : (Form.sign ">").begins before = false)
      (hargument : Writes (captured argument) before (markOf '>' joined :: after)
        (isLifetime, lexemes) []) :
      ArgumentLists argument after before [⟨lexemes, isLifetime, false⟩] false
  | cons (joined : Bool) {before middle lexemes : List Lexeme} {isLifetime : Bool}
      {arguments : List Argument} {endsWithComma : Bool}
      (hongoing : (Form.sign ">").begins before = false)
      (hshorter : middle.length < before.length)
      (hargument : Writes (captured argument) before (markOf ',' joined :: middle)
        (isLifetime, lexemes) [])
      (hlists : ArgumentLists argument after middle arguments endsWithComma) :
      ArgumentLists argument after before (⟨lexemes, isLifetime, true⟩ :: arguments)
        (endsWithComma || arguments.isEmpty)

variable {argument : Copier Bool} {arguments : List Argument} {endsWithComma : Bool}

/-- Arguments are read up to the closing angle bracket. -/
theorem ArgumentLists.argumentsUpTo
    (hlists : ArgumentLists argument after before arguments endsWithComma) {fuel : Nat}
    (hfuel : before.length < fuel) :
    ∃ joined, Writes (argumentsUpTo argument fuel) before (markOf '>' joined :: after)
      arguments [] := by
  obtain ⟨fuel, rfl⟩ := Nat.exists_eq_add_one_of_ne_zero (Nat.ne_zero_of_lt hfuel)
  induction hlists generalizing fuel with
  | nil joined => exact ⟨joined, .bind_right (writes_isAt _ _) (.pure _ _)⟩
  | @last joined before lexemes isLifetime hongoing hargument =>
      have hat := hongoing ▸ writes_isAt (.sign ">") before
      have hnocomma : Writes (skipIf (.sign ",")) (markOf '>' joined :: after) _ false [] :=
        writes_skipIf_of_not rfl
      exact ⟨joined, hat.bind_right (hargument.bind_right (hnocomma.bind_right (.pure _ _)))⟩
  | @cons joined before middle _ _ _ _ hongoing hshorter hargument hlists ih =>
      have hat := hongoing ▸ writes_isAt (.sign ">") before
      have hcomma := (isFormed_sign "," rfl joined).writes_skipIf middle
      obtain ⟨fuel, rfl⟩ := Nat.exists_eq_add_one_of_ne_zero (n := fuel) (by omega)
      obtain ⟨closed, hrest⟩ := ih fuel (by omega)
      exact ⟨closed, hat.bind_right (hargument.bind_right (hcomma.bind_right
        (hrest.bind_right (.pure _ _))))⟩

theorem ArgumentLists.angleBracketed (joined : Bool)
    (hlists : ArgumentLists argument after before arguments endsWithComma) :
    Writes (angleBracketed argument) (markOf '<' joined :: before) after arguments [] := by
  have hopened := (isFormed_sign "<" rfl joined).writes_skip before
  obtain ⟨closed, harguments⟩ := hlists.argumentsUpTo (Nat.lt_succ_self _)
  have hclosed := (isFormed_sign ">" rfl closed).writes_skip after
  exact hopened.bind_right ((writes_ahead before).bind_right (harguments.bind_right
    (hclosed.bind_right (.pure arguments after))))

theorem writes_write (lexemes rest : List Lexeme) :
    Writes (write lexemes) rest rest () (spelled lexemes) := ⟨lexemes, rfl, fun _ => rfl⟩

/-! ## The text of arguments -/

/-- A comma ends the last argument if this is so, and every other argument in any case. -/
structure EndedBy (arguments : List Argument) (endsWithComma : Bool) : Prop where
  front : ∀ argument ∈ arguments.dropLast, argument.isEnded = true
  last : arguments.getLast?.any Argument.isEnded = endsWithComma

theorem ArgumentLists.endedBy
    (hlists : ArgumentLists argument after before arguments endsWithComma) :
    EndedBy arguments endsWithComma := by
  induction hlists with
  | nil joined => exact ⟨by simp, rfl⟩
  | last joined hongoing hargument => exact ⟨by simp, rfl⟩
  | @cons _ _ _ _ _ arguments endsWithComma _ _ _ _ ih =>
      cases arguments with
      | nil => exact ⟨by simp, by simp⟩
      | cons second rest =>
          constructor
          · simpa using ih.front
          · simpa using ih.last

theorem separated_cons_cons (first second : Argument) (rest : List Argument) :
    separated (first :: second :: rest) = first.lexemes ++ mark ',' :: separated (second :: rest) :=
  rfl

/-- Arguments with commas between them are spelled like those of the grammar. -/
theorem spelled_separated (arguments : List Argument) :
    spelled (separated arguments) =
      GenericArgument.joined (arguments.map Argument.generic)
        (arguments.getLast?.any Argument.isEnded) := by
  induction arguments with
  | nil => simp [separated, GenericArgument.joined, spelled]
  | cons first rest ih =>
      cases rest with
      | nil =>
          cases hended : first.isEnded <;>
            simp [separated, GenericArgument.joined, spelled_append, hended, Argument.generic,
              spelled_mark]
      | cons second rest =>
          rw [separated_cons_cons, spelled_append, ← List.singleton_append, spelled_append, ih]
          simp [GenericArgument.joined, Argument.generic, spelled_mark]

/-- Putting lifetimes first does not depend on the lexemes of the arguments. -/
theorem generic_lifetimesFirst (arguments : List Argument) :
    (lifetimesFirst arguments).map Argument.generic =
      (arguments.map Argument.generic).filter GenericArgument.isLifetime ++
        (arguments.map Argument.generic).filter fun argument => !argument.isLifetime := by
  rw [lifetimesFirst, List.map_append, List.filter_map, List.filter_map]
  rfl

/-- With lifetimes first, a comma ends the arguments if it did before or the last one moved. -/
theorem EndedBy.lifetimesFirst (hended : EndedBy arguments endsWithComma) :
    (lifetimesFirst arguments).getLast?.any Argument.isEnded =
      (endsWithComma || GenericArgument.lastMoves (arguments.map Argument.generic)) := by
  rcases List.eq_nil_or_concat arguments with hnil | ⟨front, last, hsplit⟩
  · rw [hnil] at hended ⊢
    rw [← hended.last]
    rfl
  · rw [hsplit, List.concat_eq_append] at hended ⊢
    have hlast : last.isEnded = endsWithComma := by simpa using hended.last
    have hfront : ∀ argument ∈ front, argument.isEnded = true := by simpa using hended.front
    have hmoves : GenericArgument.lastMoves ((front ++ [last]).map Argument.generic) =
        (last.isLifetime && front.any fun argument => !argument.isLifetime) := by
      rw [List.map_append, List.map_singleton, GenericArgument.lastMoves_concat, List.any_map]
      rfl
    rw [hmoves]
    cases hlifetime : last.isLifetime with
    | false =>
        simp [Arrangement.lifetimesFirst, hlifetime, hlast, ← List.append_assoc]
    | true =>
        have hfirst : Arrangement.lifetimesFirst (front ++ [last]) =
            front.filter Argument.isLifetime ++ [last] ++
              front.filter fun argument => !argument.isLifetime := by
          simp [Arrangement.lifetimesFirst, hlifetime]
        rcases List.eq_nil_or_concat (front.filter fun argument => !argument.isLifetime) with
          hnone | ⟨others, other, hothers⟩
        · have hany : (front.any fun argument => !argument.isLifetime) = false := by
            simpa [List.filter_eq_nil_iff] using hnone
          simp [hfirst, hnone, hany, hlast]
        · rw [List.concat_eq_append] at hothers
          have hother : other ∈ front.filter fun argument => !argument.isLifetime := by
            rw [hothers]
            exact List.mem_append_right others (List.mem_singleton_self other)
          obtain ⟨hmem, hnot⟩ := List.mem_filter.mp hother
          have hany : (front.any fun argument => !argument.isLifetime) = true :=
            List.any_eq_true.mpr ⟨other, hmem, hnot⟩
          have hlast : other.isEnded = true := hfront other hmem
          simp only [hfirst, hothers, hany, Bool.and_true, Bool.or_true, ← List.append_assoc,
            List.getLast?_concat, Option.any_some, hlast]

/-- Arguments are written as they are printed. -/
theorem EndedBy.spelled_lifetimesFirst (hended : EndedBy arguments endsWithComma) :
    spelled (separated (Arrangement.lifetimesFirst arguments)) =
      GenericArgument.printed (arguments.map Argument.generic) endsWithComma := by
  rw [spelled_separated, generic_lifetimesFirst, hended.lifetimesFirst, GenericArgument.printed]

end FieldWiring.Source.Arrangement
