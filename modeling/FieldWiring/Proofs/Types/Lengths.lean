import FieldWiring.Proofs.Types.Paths

/-!
# Lengths of arrays

The length of an array is an expression.  Its operands are copied as they are spelled, each up
to the operator or the bracket that ends it, and so are the operators between them.
-/

namespace FieldWiring.Source

open Arrangement

variable {before middle after lexemes rest : List Lexeme} {name text text' : List Char}
  {grammar : Grammar}

/-! ## Nesting -/

/-- What is nested deeply enough is copied by a grammar whose nesting is bounded. -/
theorem writes_grammarUpTo {category : Category} {count depth : Nat}
    (hwrites : ∀ depth, count ≤ depth + 1 →
      Writes (grammarUpTo (depth + 1) category) before rest () text)
    (hpos : 0 < count) (hcount : count ≤ depth) :
    Writes (grammarUpTo depth category) before rest () text := by
  cases depth with
  | zero => omega
  | succ depth => exact hwrites depth hcount

/-! ## Beginnings and ends of operands -/

/-- The lexemes begin like an operand. -/
inductive BeginsOperand : List Lexeme → Prop where
  | number (spelling : List Char) (more : List Lexeme) :
      BeginsOperand (⟨.number, spelling, false⟩ :: more)
  | word (name : List Char) (more : List Lexeme) : BeginsOperand (wordOf name :: more)
  | opening (more : List Lexeme) : BeginsOperand (openingOf '(' :: more)

theorem IsOperand.beginsOperand (hoperand : IsOperand lexemes) (rest : List Lexeme) :
    BeginsOperand (lexemes ++ rest) := by
  cases hoperand with
  | number spelling => exact .number spelling rest
  | name hpath => cases hpath <;> exact .word _ _
  | group hlength => exact .opening _

theorem IsLength.beginsOperand (hlength : IsLength lexemes) (rest : List Lexeme) :
    BeginsOperand (lexemes ++ rest) := by
  cases hlength with
  | operands hfirst hmore =>
      rw [List.append_assoc]
      exact hfirst.beginsOperand _

theorem BeginsOperand.isOngoing (hbegins : BeginsOperand lexemes) : IsOngoing lexemes := by
  cases hbegins <;> rfl

theorem BeginsOperand.length_pos (hbegins : BeginsOperand lexemes) : 0 < lexemes.length := by
  cases hbegins <;> exact Nat.succ_pos _

/-- The lexemes end an operand. -/
inductive EndsOperand : List Lexeme → Prop where
  | closing (closing : Char) (more : List Lexeme) : EndsOperand (closingOf closing :: more)
  | operator {symbol : Char} (hsymbol : symbol ∈ operatorSymbols) (joined : Bool)
      (more : List Lexeme) : EndsOperand (markOf symbol joined :: more)

theorem AreApplied.endsOperand (happlied : AreApplied lexemes) (closing : Char)
    (rest : List Lexeme) : EndsOperand (lexemes ++ closingOf closing :: rest) := by
  cases happlied with
  | nil => exact .closing closing rest
  | cons joined hsymbol hoperand hmore => exact .operator hsymbol joined _

/-- Forms that would go on with an operand. -/
def applyingForms : List Form :=
  [.sign "::", .sign "<", .sign "!", .sign "#", .opening '\x7b']

theorem EndsOperand.begins_eq_false (hends : EndsOperand rest) (form : Form)
    (hform : form ∈ applyingForms) : form.begins rest = false := by
  have hnone : (applyingForms.any fun form => form.begins rest) = false := by
    cases hends with
    | closing closing more => rfl
    | operator hsymbol joined more =>
        simp only [operatorSymbols, List.mem_cons, List.not_mem_nil, or_false] at hsymbol
        rcases hsymbol with rfl | rfl | rfl | rfl | rfl <;> rfl
  simpa using List.any_eq_false.mp hnone form hform

theorem EndsOperand.endsName (hends : EndsOperand rest) : EndsName rest where
  angle := hends.begins_eq_false _ (by decide)
  separated := by rw [beginWith, hends.begins_eq_false _ (by decide), Bool.false_and]

/-- Nothing is selected from an operand that ends. -/
theorem EndsOperand.writes_trailers (hends : EndsOperand rest) :
    Writes (trailers grammar) rest rest false [] := by
  refine ⟨[], rfl, ?_⟩
  intro written
  have hrun : (trailers grammar).run ⟨rest, written⟩ =
      some (rest.length != rest.length, ⟨rest, written⟩) := by
    cases hends with
    | closing closing more => rfl
    | operator hsymbol joined more =>
        simp only [operatorSymbols, List.mem_cons, List.not_mem_nil, or_false] at hsymbol
        rcases hsymbol with rfl | rfl | rfl | rfl | rfl <;> rfl
  rw [hrun, bne_self_eq_false]
  rfl

/-! ## Operands -/

/-- Without a sign in front and a selection behind, an operand is its atom. -/
theorem writes_operand (hbegins : BeginsOperand before)
    (hatom : Writes (atom grammar true) before rest Nature.ordinary text)
    (hends : EndsOperand rest) :
    Writes (operand grammar true) before rest Nature.ordinary text := by
  have hnone : Writes (outerAttributes grammar) before before () [] :=
    writes_outerAttributes_none (by cases hbegins <;> rfl)
  have hsign : Writes signInFront before before false [] := by
    cases hbegins <;> exact ⟨[], rfl, fun _ => rfl⟩
  apply Writes.asItStandsIf _ rfl
  exact hnone.bind_right (hsign.bind_right (hatom.bind_left
    (hends.writes_trailers.bind_right (.pure Nature.ordinary rest))))

theorem writes_numberAtom (spelling : List Char) (rest : List Lexeme) :
    Writes (atom grammar true) (⟨.number, spelling, false⟩ :: rest) rest Nature.ordinary
      (spelled [⟨.number, spelling, false⟩]) :=
  .of_cons (pure Nature.ordinary) (fun _ => rfl) (.pure Nature.ordinary rest)

theorem writes_groupAtom (hongoing : IsOngoing before)
    (hlength : Writes (grammar (.expression true)) before (closingOf ')' :: rest) () text) :
    Writes (atom grammar true) (openingOf '(' :: before) rest Nature.ordinary
      ('(' :: text ++ [')']) := by
  have hexpressions : Writes (expressions grammar) before (closingOf ')' :: rest) () text :=
    Lists.listOf (.last hongoing hlength) rfl
  have hgroup : Writes (do bracketed '(' (expressions grammar); return Nature.ordinary)
      (openingOf '(' :: before) rest Nature.ordinary ('(' :: text ++ [')']) :=
    hexpressions.bracketed.bind_left (.pure Nature.ordinary rest)
  exact hgroup

/-- A name introduces none of the forms that begin with a keyword. -/
theorem IsName.writes_atom (hname : IsName name) {more : List Lexeme}
    (hmore : (Form.sign "#").begins more = false)
    (hnamed : Writes (named grammar true) (wordOf name :: more) rest () text) :
    Writes (atom grammar true) (wordOf name :: more) rest Nature.ordinary text := by
  have hword : ∀ spelling ∈ keywords, (Form.word spelling).begins (wordOf name :: more) = false :=
    fun spelling hmem => hname.begins_word_eq_false spelling hmem more
  have hblock : (Form.opening '\x7b').begins (wordOf name :: more) = false := rfl
  have hlifetime : Form.lifetime.begins (wordOf name :: more) = false := rfl
  have hbar : (Form.sign "|").begins (wordOf name :: more) = false := rfl
  have hasync : beginsAsyncBlock (wordOf name :: more) = false := by
    simp (disch := decide) only [beginsAsyncBlock, beginWith, hword, Bool.false_and, Bool.or_self]
  have hblockForm : beginsWithBlockForm (wordOf name :: more) = false := by
    simp (disch := decide) only [beginsWithBlockForm, List.any_cons, List.any_nil, beginWith, hword,
      hblock, hlifetime, Bool.false_and, Bool.or_self]
  have hclosure : beginsClosure (wordOf name :: more) = false := by
    simp (disch := decide) only [beginsClosure, beginWith, hword, hbar, Bool.false_and,
      Bool.or_self]
  have hbuiltin : beginWith [.word "builtin", .sign "#"] (wordOf name :: more) = false := by
    change ((Form.word "builtin").begins _ && ((Form.sign "#").begins more && true)) = false
    rw [hmore, Bool.false_and, Bool.and_false]
  have hliteral := writes_copyIf_of_not (hname.begins_literal_eq_false more)
  have hbecome := writes_copyIf_of_not (hword "become" (by decide))
  have hlet := writes_copyIf_of_not (hword "let" (by decide))
  have hbreak := writes_copyIf_of_not (hword "break" (by decide))
  have hcontinue := writes_copyIf_of_not (hword "continue" (by decide))
  have hreturn := writes_isAtAny_of (hname.any_words_eq_false ["return", "yield"] (by decide) more)
  have hblank := writes_copyIf_of_not (hword "_" (by decide))
  rw [atom]
  refine (writes_ahead _).bind_right (hliteral.bind_right ?_)
  rw [hasync, hblockForm, hclosure, hbuiltin]
  exact hbecome.bind_right (hlet.bind_right (hbreak.bind_right (hcontinue.bind_right
    (hreturn.bind_right (hblank.bind_right ((writes_isAt _ _).bind_right
      ((writes_isAt _ _).bind_right ((writes_isAt _ _).bind_right
        (hnamed.bind_left (.pure Nature.ordinary rest))))))))))

theorem IsNamePath.repeats (hpath : IsNamePath lexemes) (grammar : Grammar)
    (hends : EndsOperand rest) :
    Repeats (segmentStep grammar true) rest (lexemes ++ rest) (spelled lexemes) := by
  induction hpath with
  | @last name hname =>
      have hsegment := hends.endsName.writes_pathSegment hname grammar true
      rw [spelled_wordOf, spelled_nil, List.append_nil]
      exact repeats_last_segment hsegment (hends.begins_eq_false _ (by decide))
  | @cons name joined more hname hmore ih =>
      have hbegins := hmore.beginsPath rest
      have hendsName : EndsName (colons joined ++ (more ++ rest)) := hbegins.endsName
      have hsegment := hendsName.writes_pathSegment hname grammar true
      have htext : spelled (wordOf name :: colons joined ++ more) =
          name ++ "::".toList ++ spelled more := by
        rw [spelled_append, spelled_wordOf, spelled_colons]
      rw [htext, List.append_assoc, List.cons_append]
      refine repeats_cons_segment hsegment hbegins ?_ ih
      simp only [List.length_cons, List.length_append, length_colons]
      omega

/-- A path makes no record and is not expanded where an operand ends. -/
theorem IsNamePath.writes_named (hpath : IsNamePath lexemes) (grammar : Grammar)
    (hends : EndsOperand rest) :
    Writes (named grammar true) (lexemes ++ rest) rest () (spelled lexemes) := by
  have hangle := (hpath.beginsPath rest).begins_angle_eq_false
  have hcolons : (Form.sign "::").begins (lexemes ++ rest) = false := by cases hpath <;> rfl
  have hnames : Writes (path grammar true) (lexemes ++ rest) rest () (spelled lexemes) :=
    (writes_copyIf_of_not hcolons).bind_right (hpath.repeats grammar hends).repeating
  have hqualified : Writes (qualifiedPath grammar true) (lexemes ++ rest) rest ()
      (spelled lexemes) := (writes_copyIf_of_not hangle).bind_right hnames
  have hexpansion : Writes isAtExpansion rest rest false [] :=
    (writes_isAt_of (hends.begins_eq_false (.sign "!") (by decide))).bind_right
      ((writes_isAt _ rest).bind_right (.pure false rest))
  have hrecord : Writes (pure true <&&> isAt (.opening '\x7b')) rest rest false [] :=
    writes_isAt_of (hends.begins_eq_false _ (by decide))
  exact hqualified.bind_left (hexpansion.bind_right (hrecord.bind_right (.pure () rest)))

theorem IsNamePath.writes_atom (hpath : IsNamePath lexemes) (grammar : Grammar)
    (hends : EndsOperand rest) :
    Writes (atom grammar true) (lexemes ++ rest) rest Nature.ordinary (spelled lexemes) := by
  have hnamed := hpath.writes_named grammar hends
  have hwords : ∀ {name : List Char} {more : List Lexeme} {text : List Char},
      IsName name ∨ name ∈ pathKeywords → (Form.sign "#").begins more = false →
      Writes (named grammar true) (wordOf name :: more) rest () text →
      Writes (atom grammar true) (wordOf name :: more) rest Nature.ordinary text := by
    intro name more text hname hmore hnamed
    cases hname with
    | inl hname => exact hname.writes_atom hmore hnamed
    | inr hname =>
        have hlast : Writes (do named grammar true; return Nature.ordinary) (wordOf name :: more)
            rest Nature.ordinary text := hnamed.bind_left (.pure Nature.ordinary rest)
        simp only [pathKeywords, List.mem_cons, List.not_mem_nil, or_false] at hname
        rcases hname with rfl | rfl | rfl | rfl <;> exact hlast
  cases hpath with
  | last hname => exact hwords hname (hends.begins_eq_false _ (by decide)) hnamed
  | cons joined hname hrest => exact hwords hname rfl hnamed

/-! ## Operators

No operand begins with a mark, so that an operator is a mark alone, even one that is joined to
what follows it.
-/

theorem BeginsOperand.writes_assignment (hbegins : BeginsOperand lexemes) {symbol : Char}
    (hsymbol : symbol ∈ operatorSymbols) (joined : Bool) :
    Writes assignment (markOf symbol joined :: lexemes) (markOf symbol joined :: lexemes) false
      [] := by
  simp only [operatorSymbols, List.mem_cons, List.not_mem_nil, or_false] at hsymbol
  cases joined <;> cases hbegins <;> rcases hsymbol with rfl | rfl | rfl | rfl | rfl <;>
    exact ⟨[], rfl, fun _ => rfl⟩

theorem BeginsOperand.writes_operator (hbegins : BeginsOperand lexemes) {symbol : Char}
    (hsymbol : symbol ∈ operatorSymbols) (joined : Bool) :
    Writes operator (markOf symbol joined :: lexemes) lexemes true [symbol] := by
  refine ⟨[markOf symbol joined], rfl, ?_⟩
  simp only [operatorSymbols, List.mem_cons, List.not_mem_nil, or_false] at hsymbol
  cases joined <;> cases hbegins <;> rcases hsymbol with rfl | rfl | rfl | rfl | rfl <;>
    exact fun _ => rfl

/-- An operator takes an operand, and the chain goes on behind it. -/
theorem BeginsOperand.writes_chain {symbol : Char} {joined : Bool} {fuel : Nat}
    (hbegins : BeginsOperand before) (hsymbol : symbol ∈ operatorSymbols)
    (hoperand : Writes (grammar (.operand true)) before middle () text)
    (hchain : Writes (chainUpTo grammar true fuel Nature.ordinary) middle after Nature.ordinary
      text') :
    Writes (chainUpTo grammar true (fuel + 1) Nature.ordinary) (markOf symbol joined :: before)
      after Nature.ordinary (symbol :: (text ++ text')) :=
  (hbegins.writes_assignment hsymbol joined).bind_right
    ((hbegins.writes_operator hsymbol joined).bind (hoperand.bind hchain))

/-! ## Lengths -/

theorem IsOperand.length_pos (hoperand : IsOperand lexemes) : 0 < lexemes.length := by
  simpa using (hoperand.beginsOperand []).length_pos

theorem IsLength.length_pos (hlength : IsLength lexemes) : 0 < lexemes.length := by
  simpa using (hlength.beginsOperand []).length_pos

mutual

theorem IsOperand.writes {lexemes : List Lexeme} :
    IsOperand lexemes → ∀ depth rest, lexemes.length ≤ depth + 1 → EndsOperand rest →
      Writes (operand (grammarUpTo depth) true) (lexemes ++ rest) rest Nature.ordinary
        (spelled lexemes)
  | .number spelling, depth, rest, hdepth, hends =>
      writes_operand (.number spelling rest) (writes_numberAtom spelling rest) hends
  | .name hpath, depth, rest, hdepth, hends =>
      writes_operand ((IsOperand.name hpath).beginsOperand rest)
        (hpath.writes_atom (grammarUpTo depth) hends) hends
  | .group hlength, depth, rest, hdepth, hends => by
      rw [length_inBrackets] at hdepth
      rw [spelled_inBrackets, inBrackets_append]
      have hbegins := hlength.beginsOperand (closingOf ')' :: rest)
      refine writes_operand (.opening _) (writes_groupAtom hbegins.isOngoing ?_) hends
      exact writes_grammarUpTo (fun depth hdepth =>
        (hlength.writes depth ')' rest hdepth).bind_left (.pure () _)) hlength.length_pos
        (by omega)

theorem IsLength.writes {lexemes : List Lexeme} :
    IsLength lexemes → ∀ depth closing rest, lexemes.length ≤ depth + 1 →
      Writes (expression (grammarUpTo depth) true) (lexemes ++ closingOf closing :: rest)
        (closingOf closing :: rest) Nature.ordinary (spelled lexemes)
  | @IsLength.operands first more hfirst hmore, depth, closing, rest, hdepth => by
      have hpos := hfirst.length_pos
      rw [List.length_append] at hdepth
      rw [spelled_append, List.append_assoc]
      have hoperand := hfirst.writes depth _ (by omega) (hmore.endsOperand closing rest)
      have hfuel : more.length < (more ++ closingOf closing :: rest).length + 1 := by
        rw [List.length_append]
        omega
      exact hoperand.bind ((writes_ahead _).bind_right
        (hmore.writes_chain depth _ closing rest (by omega) hfuel))

theorem AreApplied.writes_chain {lexemes : List Lexeme} :
    AreApplied lexemes → ∀ depth fuel closing rest, lexemes.length ≤ depth →
      lexemes.length < fuel →
      Writes (chainUpTo (grammarUpTo depth) true fuel Nature.ordinary)
        (lexemes ++ closingOf closing :: rest) (closingOf closing :: rest) Nature.ordinary
        (spelled lexemes)
  | _, _, 0, _, _, _, hfuel => absurd hfuel (Nat.not_lt_zero _)
  | .nil, depth, fuel + 1, closing, rest, hdepth, hfuel => ⟨[], rfl, fun _ => rfl⟩
  | .cons joined hsymbol hoperand hmore, depth, fuel + 1, closing, rest, hdepth, hfuel => by
      simp only [List.length_append, List.length_cons] at hdepth hfuel
      have hpos := hoperand.length_pos
      have hends := hmore.endsOperand closing rest
      rw [spelled_append, spelled_markOf, List.append_assoc, List.cons_append, List.cons_append]
      have hnested : Writes (grammarUpTo depth (.operand true)) _ _ () _ :=
        writes_grammarUpTo (fun depth hdepth =>
          (hoperand.writes depth _ hdepth hends).bind_left (.pure () _)) hpos (by omega)
      exact (hoperand.beginsOperand _).writes_chain hsymbol hnested
        (hmore.writes_chain depth fuel closing rest (by omega) (by omega))

end

/-- The length of an array is copied as it is spelled. -/
theorem IsLength.writes_nested (hlength : IsLength lexemes) (depth : Nat) (rest : List Lexeme)
    (hdepth : lexemes.length ≤ depth) :
    Writes (grammarUpTo depth (.expression true)) (lexemes ++ closingOf ']' :: rest)
      (closingOf ']' :: rest) () (spelled lexemes) :=
  writes_grammarUpTo (fun depth hdepth =>
    (hlength.writes depth ']' rest hdepth).bind_left (.pure () _)) hlength.length_pos hdepth

end FieldWiring.Source
