import Mathlib.Data.List.Infix
import FieldWiring.Source.Arrangement

/-!
# Sources that keep their arrangement

An arrangement moves or drops lexemes only behind certain forms.  Where none of them occurs,
whatever is copied is spelled like the source.  A copier of types is put together from other
copiers, and that each of them keeps the spelling is found along the way it is put together.
-/

namespace FieldWiring.Source.Arrangement

-- A copier with many branches is a large instance problem, though a flat one.
set_option synthInstance.maxSize 4096

/-! ## Simple sources -/

/-- The forms behind which an arrangement may differ from the source. -/
def movingForms : List (List Form) :=
  [[.word "for"], [.opening '\x7b'], [.sign "#"], [.sign ";"], [.sign ",", .lifetime],
    [.sign "::", .opening '(']]

/-- None of those forms occurs. -/
def IsSimple (lexemes : List Lexeme) : Prop :=
  ∀ rest, rest <:+ lexemes → ∀ forms ∈ movingForms, beginWith forms rest = false

instance : DecidablePred IsSimple := fun lexemes =>
  decidable_of_iff
    (∀ rest ∈ lexemes.tails, ∀ forms ∈ movingForms, beginWith forms rest = false)
    (by simp only [IsSimple, List.mem_tails])

theorem IsSimple.of_suffix {lexemes rest : List Lexeme} (hsimple : IsSimple lexemes)
    (hrest : rest <:+ lexemes) : IsSimple rest :=
  fun later hlater => hsimple later (hlater.trans hrest)

theorem IsSimple.beginWith_eq_false {lexemes : List Lexeme} (hsimple : IsSimple lexemes)
    {forms : List Form} (hforms : forms ∈ movingForms) : beginWith forms lexemes = false :=
  hsimple lexemes (List.suffix_refl lexemes) forms hforms

class Moves (form : Form) : Prop where
  mem : [form] ∈ movingForms

/-- A simple source does not continue with a form that moves lexemes alone. -/
theorem IsSimple.begins_eq_false {lexemes : List Lexeme} (hsimple : IsSimple lexemes)
    (form : Form) [hform : Moves form] : form.begins lexemes = false := by
  simpa [beginWith] using hsimple.beginWith_eq_false hform.mem

instance : Moves (.word "for") := ⟨by decide⟩
instance : Moves (.opening '\x7b') := ⟨by decide⟩
instance : Moves (.sign "#") := ⟨by decide⟩
instance : Moves (.sign ";") := ⟨by decide⟩

theorem IsSimple.not_separator_parenthesis {lexemes : List Lexeme} (hsimple : IsSimple lexemes) :
    beginWith [.sign "::", .opening '('] lexemes = false :=
  hsimple.beginWith_eq_false (by decide)

theorem IsSimple.not_lifetime_behind_comma {lexemes : List Lexeme} (hsimple : IsSimple lexemes)
    (hcomma : (Form.sign ",").begins lexemes = true) :
    Form.lifetime.begins (lexemes.drop (Form.sign ",").length) = false := by
  have hforms : beginWith [.sign ",", .lifetime] lexemes = false :=
    hsimple.beginWith_eq_false (by decide)
  simpa [beginWith, hcomma] using hforms

/-! ## Copies -/

def spelled (lexemes : List Lexeme) : List Char := lexemes.flatMap Lexeme.spelling

theorem spelled_append (front back : List Lexeme) :
    spelled (front ++ back) = spelled front ++ spelled back := List.flatMap_append

/-- What is written is spelled like what is taken for it. -/
def Copies (before after : Progress) : Prop :=
  ∃ taken copy, before.remaining = taken ++ after.remaining ∧
    after.written = copy.reverse ++ before.written ∧ spelled copy = spelled taken

/-- In a simple source, what the copier takes and what it writes are spelled alike. -/
class Keeps {α : Type} (copier : Copier α) : Prop where
  copies : ∀ {before after : Progress} {result : α}, IsSimple before.remaining →
    copier.run before = some (result, after) → Copies before after

variable {α β : Type} {before middle after : Progress}

/-- What remains is the end of what was there before. -/
theorem Copies.suffix (hcopies : Copies before after) : after.remaining <:+ before.remaining := by
  obtain ⟨taken, -, hremaining, -⟩ := hcopies
  exact ⟨taken, hremaining.symm⟩

theorem Copies.refl (progress : Progress) : Copies progress progress :=
  ⟨[], [], rfl, rfl, rfl⟩

/-- Copies made one after the other are one copy. -/
theorem Copies.trans (hfirst : Copies before middle) (hsecond : Copies middle after) :
    Copies before after := by
  obtain ⟨taken, copy, hremaining, hwritten, hspelled⟩ := hfirst
  obtain ⟨taken', copy', hremaining', hwritten', hspelled'⟩ := hsecond
  refine ⟨taken ++ taken', copy ++ copy', ?_, ?_, ?_⟩
  · rw [hremaining, hremaining', List.append_assoc]
  · rw [hwritten', hwritten, List.reverse_append, List.append_assoc]
  · rw [spelled_append, spelled_append, hspelled, hspelled']

/-! ## Copiers in general -/

instance (value : α) : Keeps (pure value : Copier α) where
  copies _ hrun := by
    cases hrun
    exact .refl _

/-- A copier goes on where the one before it has stopped. -/
theorem run_bind_eq_some_iff {first : Copier α} {next : α → Copier β} {result : β} :
    (first >>= next).run before = some (result, after) ↔
      ∃ value middle, first.run before = some (value, middle) ∧
        (next value).run middle = some (result, after) := by
  rw [StateT.run_bind, Option.bind_eq_bind, Option.bind_eq_some_iff, Prod.exists]

instance (first : Copier α) (next : α → Copier β) [hfirst : Keeps first]
    [hnext : ∀ value, Keeps (next value)] : Keeps (first >>= next) where
  copies hsimple hrun := by
    obtain ⟨value, middle, hvalue, hresult⟩ := run_bind_eq_some_iff.mp hrun
    have hcopies := hfirst.copies hsimple hvalue
    exact hcopies.trans ((hnext value).copies (hsimple.of_suffix hcopies.suffix) hresult)

instance (condition : Prop) [Decidable condition] (first second : Copier α) [Keeps first]
    [Keeps second] : Keeps (if condition then first else second) := by
  split <;> infer_instance

instance (first second : Copier α) [hsecond : Keeps second] :
    Keeps (if false = true then first else second) := by
  rw [if_neg Bool.false_ne_true]
  exact hsecond

instance : Keeps (failure : Copier α) where
  copies _ hrun := by cases hrun

instance (condition : Prop) [Decidable condition] : Keeps (guard condition : Copier Unit) := by
  rw [guard]
  infer_instance

instance : Keeps ahead where
  copies _ hrun := by
    cases hrun
    exact .refl _

instance (form : Form) : Keeps (isAt form) := by
  rw [isAt]
  infer_instance

instance (forms : List Form) : Keeps (isAtAny forms) := by
  rw [isAtAny]
  infer_instance

instance (forms : List Form) : Keeps (isAtAll forms) := by
  rw [isAtAll]
  infer_instance

instance : Keeps isAtEnd := by
  rw [isAtEnd]
  infer_instance

instance (count : Nat) : Keeps (copyLexemes count) where
  copies {before _ _} _ hrun := by
    cases hrun
    exact ⟨before.remaining.take count, before.remaining.take count,
      (List.take_append_drop count before.remaining).symm, rfl, rfl⟩

instance (form : Form) : Keeps (copy form) := by
  rw [copy]
  infer_instance

theorem run_copyIf (form : Form) (before : Progress) :
    (copyIf form).run before = some (form.begins before.remaining,
      if form.begins before.remaining then
        ⟨before.remaining.drop form.length,
          (before.remaining.take form.length).reverse ++ before.written⟩
      else before) := by
  cases hbegins : form.begins before.remaining with
  | false => simp [copyIf, isAt, ahead, hbegins]
  | true => simp [copyIf, isAt, ahead, hbegins, copyLexemes, write, leaveOut]

theorem run_skipIf (form : Form) (before : Progress) :
    (skipIf form).run before = some (form.begins before.remaining,
      if form.begins before.remaining then
        ⟨before.remaining.drop form.length, before.written⟩
      else before) := by
  cases hbegins : form.begins before.remaining with
  | false => simp [skipIf, isAt, ahead, hbegins]
  | true => simp [skipIf, isAt, ahead, hbegins, leaveOut]

instance (form : Form) : Keeps (copyIf form) := by
  rw [copyIf]
  infer_instance

instance : Keeps copyUnit := by
  rw [copyUnit]
  infer_instance

instance (bracket : Char) (content : Copier α) [Keeps content] :
    Keeps (bracketed bracket content) := by
  rw [bracketed]
  infer_instance

theorem keeps_repeatUpTo (step : Copier Bool) [Keeps step] (fuel : Nat) :
    Keeps (repeatUpTo step fuel) := by
  induction fuel with
  | zero =>
      rw [repeatUpTo]
      infer_instance
  | succ fuel ih =>
      rw [repeatUpTo]
      infer_instance

instance (step : Copier Bool) [Keeps step] (fuel : Nat) : Keeps (repeatUpTo step fuel) :=
  keeps_repeatUpTo step fuel

instance (step : Copier Bool) [Keeps step] : Keeps (repeating step) := by
  rw [repeating]
  infer_instance

instance (item : Copier Unit) [Keeps item] : Keeps (listOf item) := by
  rw [listOf]
  infer_instance

theorem Copies.take_eq (hcopies : Copies before after) :
    ∃ taken, before.remaining = taken ++ after.remaining ∧
      before.remaining.take (before.remaining.length - after.remaining.length) = taken := by
  obtain ⟨taken, -, hremaining, -⟩ := hcopies
  refine ⟨taken, hremaining, ?_⟩
  rw [hremaining, List.length_append, Nat.add_sub_cancel, List.take_left]

instance (property : α → Bool) (part : Copier α) [hpart : Keeps part] :
    Keeps (asItStandsIf property part) where
  copies {before _ _} hsimple hrun := by
    rw [asItStandsIf] at hrun
    obtain ⟨_, _, hget, hrest⟩ := run_bind_eq_some_iff.mp hrun
    cases hget
    obtain ⟨result, middle, hpartRun, hlast⟩ := run_bind_eq_some_iff.mp hrest
    have hcopies := hpart.copies hsimple hpartRun
    obtain ⟨taken, hremaining, htaken⟩ := hcopies.take_eq
    split at hlast
    · cases hlast
      refine ⟨taken, taken, hremaining, ?_, rfl⟩
      rw [← htaken]
    · cases hlast
      exact hcopies

instance (part : Copier Bool) [Keeps part] : Keeps (asItStandsOr part) := by
  rw [asItStandsOr]
  infer_instance

/-! ## Forms that do not occur -/

instance (form : Form) [Moves form] (next : Bool → Copier α) [hnext : Keeps (next false)] :
    Keeps (isAt form >>= next) where
  copies {before after result} hsimple hrun := by
    change (next (form.begins before.remaining)).run before = some (result, after) at hrun
    rw [hsimple.begins_eq_false form] at hrun
    exact hnext.copies hsimple hrun

instance (form : Form) (more : List Form) [Moves form] (next : Bool → Copier α)
    [hnext : Keeps (next false)] : Keeps (isAtAll (form :: more) >>= next) where
  copies {before after result} hsimple hrun := by
    change (next (beginWith (form :: more) before.remaining)).run before = some (result, after)
      at hrun
    rw [beginWith, hsimple.begins_eq_false form, Bool.false_and] at hrun
    exact hnext.copies hsimple hrun

instance (form : Form) [Moves form] (next : Bool → Copier α) [hnext : Keeps (next false)] :
    Keeps (copyIf form >>= next) := by
  rw [copyIf, bind_assoc]
  have hfalse : Keeps ((fun present : Bool => (do
      if present then copyLexemes form.length
      return present : Copier Bool) >>= next) false) := by
    simpa using hnext
  infer_instance

instance (first second : Copier Bool) [Keeps first] [Keeps second] :
    Keeps (first <&&> second) := by
  have hnext : ∀ value : Bool, Keeps (match toBool value with
      | true => second
      | false => pure value) := by
    intro value
    cases value
    · exact inferInstanceAs (Keeps (pure false))
    · exact inferInstanceAs (Keeps second)
  rw [andM]
  infer_instance

/-! ## Arguments in angle brackets -/

/-- The copier tells only of a lifetime that it is one. -/
class FlagsLifetimes (argument : Copier Bool) : Prop where
  begins : ∀ {before after : Progress}, argument.run before = some (true, after) →
    Form.lifetime.begins before.remaining = true

/-- The copier tells of nothing that it is a lifetime. -/
class Denies (copier : Copier Bool) : Prop where
  eq_false : ∀ {before after : Progress} {result : Bool},
    copier.run before = some (result, after) → result = false

instance : Denies (pure false) where
  eq_false hrun := by
    cases hrun
    rfl

instance (first : Copier α) (next : α → Copier Bool) [hnext : ∀ value, Denies (next value)] :
    Denies (first >>= next) where
  eq_false hrun := by
    obtain ⟨value, middle, -, hresult⟩ := run_bind_eq_some_iff.mp hrun
    exact (hnext value).eq_false hresult

instance (condition : Prop) [Decidable condition] (first second : Copier Bool) [Denies first]
    [Denies second] : Denies (if condition then first else second) := by
  split <;> infer_instance

instance (first second : Copier Bool) [hsecond : Denies second] : FlagsLifetimes (do
    if ← copyIf .lifetime then first else second) where
  begins {before after} hrun := by
    obtain ⟨present, middle, hpresent, hresult⟩ := run_bind_eq_some_iff.mp hrun
    cases present with
    | false => cases hsecond.eq_false hresult
    | true =>
        rw [run_copyIf] at hpresent
        exact (Prod.mk.inj (Option.some.inj hpresent)).1

/-- The arguments are those that are taken, and none but the first is a lifetime. -/
structure Reads (before after : Progress) (arguments : List Argument) : Prop where
  taken : ∃ taken, before.remaining = taken ++ after.remaining ∧
    spelled (separated arguments) = spelled taken
  written : after.written = before.written
  later : ∀ argument ∈ arguments.tail, argument.isLifetime = false
  first : Form.lifetime.begins before.remaining = false →
    ∀ argument ∈ arguments, argument.isLifetime = false

theorem spelled_mark (symbol : Char) : spelled [mark symbol] = [symbol] := rfl

/-- A sign of one character is one lexeme. -/
theorem exists_cons_of_begins_sign {text : String} {symbol : Char} (htext : text.toList = [symbol])
    {lexemes : List Lexeme} (hbegins : (Form.sign text).begins lexemes = true) :
    ∃ lexeme, lexemes = lexeme :: lexemes.drop (Form.sign text).length ∧
      spelled [lexeme] = [symbol] := by
  have hlength : (Form.sign text).length = 1 := by
    rw [Form.length, ← String.length_toList, htext, List.length_singleton]
  rw [Form.begins, htext] at hbegins
  cases lexemes with
  | nil => cases hbegins
  | cons lexeme rest =>
      simp only [beginsWithSign, Bool.and_eq_true, decide_eq_true_eq] at hbegins
      refine ⟨lexeme, ?_, ?_⟩
      · rw [hlength, List.drop_succ_cons, List.drop_zero]
      · rw [spelled, List.flatMap_singleton, hbegins.1.2]

theorem skip_sign_eq_some {text : String} {symbol : Char} (htext : text.toList = [symbol])
    (hrun : (skip (.sign text)).run before = some ((), after)) :
    ∃ lexeme, before.remaining = lexeme :: after.remaining ∧ spelled [lexeme] = [symbol] ∧
      after.written = before.written := by
  rw [skip] at hrun
  obtain ⟨_, _, hat, hrest⟩ := run_bind_eq_some_iff.mp hrun
  cases hat
  obtain ⟨_, _, hguard, hleave⟩ := run_bind_eq_some_iff.mp hrest
  cases hbegins : (Form.sign text).begins before.remaining with
  | false =>
      rw [hbegins] at hguard
      cases hguard
  | true =>
      rw [hbegins] at hguard
      cases hguard
      cases hleave
      obtain ⟨lexeme, hremaining, hspelled⟩ := exists_cons_of_begins_sign htext hbegins
      exact ⟨lexeme, hremaining, hspelled, rfl⟩

/-- What is captured is spelled like what is taken, and is not written. -/
theorem captured_eq_some {argument : Copier Bool} [hkeeps : Keeps argument]
    [hflags : FlagsLifetimes argument] {isLifetime : Bool} {lexemes : List Lexeme}
    (hsimple : IsSimple before.remaining)
    (hrun : (captured argument).run before = some ((isLifetime, lexemes), after)) :
    ∃ taken, before.remaining = taken ++ after.remaining ∧ spelled lexemes = spelled taken ∧
      after.written = before.written ∧
      (Form.lifetime.begins before.remaining = false → isLifetime = false) := by
  rw [captured] at hrun
  obtain ⟨_, _, hget, hrest⟩ := run_bind_eq_some_iff.mp hrun
  cases hget
  obtain ⟨_, _, hset, hrest⟩ := run_bind_eq_some_iff.mp hrest
  cases hset
  obtain ⟨flag, middle, hargument, hrest⟩ := run_bind_eq_some_iff.mp hrest
  have hcopies : Copies ⟨before.remaining, []⟩ middle := hkeeps.copies hsimple hargument
  obtain ⟨taken, copy, hremaining, hwritten, hspelled⟩ := hcopies
  have hlast : some ((flag, middle.written.reverse),
      (⟨middle.remaining, before.written⟩ : Progress)) = some ((isLifetime, lexemes), after) :=
    hrest
  cases hlast
  refine ⟨taken, hremaining, ?_, rfl, ?_⟩
  · rw [hwritten, List.append_nil, List.reverse_reverse, hspelled]
  · intro hbegins
    cases isLifetime with
    | false => rfl
    | true => exact absurd (hflags.begins hargument) (Bool.eq_false_iff.mp hbegins)

theorem separated_cons_ended (lexemes : List Lexeme) (isLifetime : Bool) (rest : List Argument) :
    separated (⟨lexemes, isLifetime, true⟩ :: rest) = lexemes ++ mark ',' :: separated rest := by
  cases rest <;> simp [separated]

theorem Reads.last {taken lexemes : List Lexeme} {isLifetime : Bool}
    (hremaining : before.remaining = taken ++ after.remaining)
    (hspelled : spelled lexemes = spelled taken) (hwritten : after.written = before.written)
    (hfirst : Form.lifetime.begins before.remaining = false → isLifetime = false) :
    Reads before after [⟨lexemes, isLifetime, false⟩] where
  taken := by
    refine ⟨taken, hremaining, ?_⟩
    rw [← hspelled, separated, if_neg Bool.false_ne_true, List.append_nil]
  written := hwritten
  later := List.forall_mem_nil _
  first hbegins := List.forall_mem_singleton.mpr (hfirst hbegins)

theorem Reads.cons {taken lexemes : List Lexeme} {comma : Lexeme} {isLifetime : Bool}
    {arguments : List Argument} (hreads : Reads middle after arguments)
    (hremaining : before.remaining = taken ++ comma :: middle.remaining)
    (hspelled : spelled lexemes = spelled taken) (hcomma : spelled [comma] = [','])
    (hwritten : middle.written = before.written)
    (hfirst : Form.lifetime.begins before.remaining = false → isLifetime = false)
    (hmiddle : Form.lifetime.begins middle.remaining = false) :
    Reads before after (⟨lexemes, isLifetime, true⟩ :: arguments) where
  taken := by
    obtain ⟨behind, hbehind, hseparated⟩ := hreads.taken
    refine ⟨taken ++ comma :: behind, ?_, ?_⟩
    · rw [hremaining, hbehind, List.append_assoc, List.cons_append]
    · calc
        spelled (separated (⟨lexemes, isLifetime, true⟩ :: arguments)) =
            spelled lexemes ++ (spelled [mark ','] ++ spelled (separated arguments)) := by
          rw [separated_cons_ended, spelled_append, ← List.singleton_append, spelled_append]
        _ = spelled taken ++ (spelled [comma] ++ spelled behind) := by
          rw [hspelled, hseparated, hcomma, spelled_mark]
        _ = spelled (taken ++ comma :: behind) := by
          rw [← spelled_append, List.singleton_append, ← spelled_append]
  written := hreads.written.trans hwritten
  later := hreads.first hmiddle
  first hbegins := List.forall_mem_cons.mpr ⟨hfirst hbegins, hreads.first hmiddle⟩

/-- Arguments are read without loss, and no lifetime stands behind another one. -/
theorem reads_of_argumentsUpTo (argument : Copier Bool) [Keeps argument]
    [FlagsLifetimes argument] {fuel : Nat} {arguments : List Argument}
    (hsimple : IsSimple before.remaining)
    (hrun : (argumentsUpTo argument fuel).run before = some (arguments, after)) :
    Reads before after arguments := by
  induction fuel generalizing before arguments with
  | zero => cases hrun
  | succ fuel ih =>
      rw [argumentsUpTo] at hrun
      obtain ⟨_, _, hat, hrest⟩ := run_bind_eq_some_iff.mp hrun
      cases hat
      split at hrest
      · cases hrest
        exact ⟨⟨[], rfl, rfl⟩, rfl, List.forall_mem_nil _, fun _ => List.forall_mem_nil _⟩
      obtain ⟨⟨isLifetime, lexemes⟩, middle, hcaptured, hrest⟩ := run_bind_eq_some_iff.mp hrest
      obtain ⟨taken, hremaining, hspelled, hwritten, hfirst⟩ := captured_eq_some hsimple hcaptured
      have hmiddle : IsSimple middle.remaining := hsimple.of_suffix ⟨taken, hremaining.symm⟩
      obtain ⟨ended, behind, hskip, hrest⟩ := run_bind_eq_some_iff.mp hrest
      rw [run_skipIf] at hskip
      cases hcomma : (Form.sign ",").begins middle.remaining with
      | false =>
          rw [hcomma] at hskip
          cases hskip
          cases hrest
          exact .last hremaining hspelled hwritten hfirst
      | true =>
          rw [hcomma, if_pos rfl] at hskip
          cases hskip
          obtain ⟨rest, _, hrun, hlast⟩ := run_bind_eq_some_iff.mp hrest
          cases hlast
          obtain ⟨comma, hbehind, hspelledComma⟩ := exists_cons_of_begins_sign rfl hcomma
          have hlifetime := hmiddle.not_lifetime_behind_comma hcomma
          have hsuffix := List.drop_suffix (Form.sign ",").length middle.remaining
          have hreads : Reads ⟨middle.remaining.drop (Form.sign ",").length, middle.written⟩
              after rest := ih (hmiddle.of_suffix hsuffix) hrun
          exact hreads.cons (hremaining.trans (congrArg (taken ++ ·) hbehind)) hspelled
            hspelledComma hwritten hfirst hlifetime

/-- Arguments in which no lifetime stands behind another argument keep their order. -/
theorem lifetimesFirst_eq_self {arguments : List Argument}
    (hlater : ∀ argument ∈ arguments.tail, argument.isLifetime = false) :
    lifetimesFirst arguments = arguments := by
  cases arguments with
  | nil => rfl
  | cons first rest =>
      have hnone : rest.filter Argument.isLifetime = [] := by
        rw [List.filter_eq_nil_iff]
        intro argument hmem
        simp [hlater argument hmem]
      have hall : rest.filter (fun argument => !argument.isLifetime) = rest := by
        rw [List.filter_eq_self]
        intro argument hmem
        simp [hlater argument hmem]
      rw [lifetimesFirst, List.filter_cons, List.filter_cons, hnone, hall]
      cases first.isLifetime <;> rfl

/-- In a simple source, arguments in angle brackets keep their order. -/
theorem angleBracketed_eq_some (argument : Copier Bool) [Keeps argument] [FlagsLifetimes argument]
    {arguments : List Argument} (hsimple : IsSimple before.remaining)
    (hrun : (angleBracketed argument).run before = some (arguments, after)) :
    (∃ taken, before.remaining = taken ++ after.remaining ∧
      spelled (mark '<' :: separated arguments ++ [mark '>']) = spelled taken) ∧
    after.written = before.written ∧ lifetimesFirst arguments = arguments := by
  rw [angleBracketed] at hrun
  obtain ⟨_, opened, hopen, hrest⟩ := run_bind_eq_some_iff.mp hrun
  obtain ⟨less, hless, hlessSpelled, hopened⟩ := skip_sign_eq_some rfl hopen
  obtain ⟨_, _, hahead, hrest⟩ := run_bind_eq_some_iff.mp hrest
  cases hahead
  obtain ⟨_, read, harguments, hrest⟩ := run_bind_eq_some_iff.mp hrest
  obtain ⟨_, closed, hclose, hlast⟩ := run_bind_eq_some_iff.mp hrest
  cases hlast
  obtain ⟨greater, hgreater, hgreaterSpelled, hclosed⟩ := skip_sign_eq_some rfl hclose
  have hsuffix : opened.remaining <:+ before.remaining := ⟨[less], hless.symm⟩
  have hreads := reads_of_argumentsUpTo argument (hsimple.of_suffix hsuffix) harguments
  obtain ⟨taken, htaken, hseparated⟩ := hreads.taken
  refine ⟨⟨less :: taken ++ [greater], ?_, ?_⟩, ?_, lifetimesFirst_eq_self hreads.later⟩
  · rw [hless, htaken, hgreater]
    simp
  · calc
      spelled (mark '<' :: separated arguments ++ [mark '>']) =
          spelled [mark '<'] ++ spelled (separated arguments) ++ spelled [mark '>'] := by
        rw [← spelled_append, ← spelled_append, List.singleton_append]
      _ = spelled [less] ++ spelled taken ++ spelled [greater] := by
        rw [hseparated, hlessSpelled, hgreaterSpelled]
        rfl
      _ = spelled (less :: taken ++ [greater]) := by
        rw [← spelled_append, ← spelled_append, List.singleton_append]
  · rw [hclosed, hreads.written, hopened]

instance (argument : Copier Bool) [Keeps argument] [FlagsLifetimes argument] :
    Keeps (angleBracketed argument >>= fun arguments =>
      writeAngleBracketed (lifetimesFirst arguments)) where
  copies {before after result} hsimple hrun := by
    obtain ⟨arguments, middle, hread, hwrite⟩ := run_bind_eq_some_iff.mp hrun
    obtain ⟨⟨taken, hremaining, hspelled⟩, hwritten, hkept⟩ :=
      angleBracketed_eq_some argument hsimple hread
    rw [hkept] at hwrite
    cases hwrite
    refine ⟨taken, mark '<' :: separated arguments ++ [mark '>'], hremaining, ?_, hspelled⟩
    exact congrArg ((mark '<' :: separated arguments ++ [mark '>']).reverse ++ ·) hwritten

/-! ## Copiers of types -/

class KeepsTypes (grammar : Grammar) : Prop where
  type : ∀ isSum, Keeps (grammar (.type isSum))
  bound : Keeps (grammar .bound)

variable (grammar : Grammar) [KeepsTypes grammar]

instance (isSum : Bool) : Keeps (grammar (.type isSum)) := KeepsTypes.type isSum
instance : Keeps (grammar .bound) := KeepsTypes.bound

instance : Keeps constantLiteral := by
  rw [constantLiteral]
  infer_instance

instance : Keeps (constantArgument grammar) := by
  rw [constantArgument]
  infer_instance

instance : Keeps isAtBound := by
  rw [isAtBound]
  infer_instance

instance : Keeps (bounds grammar) := by
  rw [bounds]
  infer_instance

instance : Keeps isAtConstant := by
  rw [isAtConstant]
  infer_instance

-- Here and below the branches are unfolded first: instances do not look behind a name that
-- is given to what follows a branch.
instance : Keeps (genericArgument grammar) := by
  rw [genericArgument]
  dsimp only
  infer_instance

instance : Keeps (outerAttributes grammar) := by
  rw [outerAttributes]
  infer_instance

instance (inExpression : Bool) : Keeps (isAtGenericArguments inExpression) := by
  rw [isAtGenericArguments]
  infer_instance

instance : FlagsLifetimes (genericArgument grammar) where
  begins {before after} hrun := by
    rw [genericArgument] at hrun
    dsimp only at hrun
    obtain ⟨_, _, hat, hrest⟩ := run_bind_eq_some_iff.mp hrun
    cases hat
    obtain ⟨_, _, hplus, hresult⟩ := run_bind_eq_some_iff.mp hrest
    cases hplus
    split at hresult
    · rename_i hlifetime
      exact (Bool.and_eq_true_iff.mp hlifetime).1
    · cases Denies.eq_false hresult

instance : Keeps (genericArguments grammar) := by
  rw [genericArguments]
  infer_instance

instance (inExpression : Bool) : Keeps (pathSegment grammar inExpression) := by
  rw [pathSegment]
  dsimp only
  infer_instance

instance (inExpression : Bool) : Keeps (pathSegments grammar inExpression) := by
  rw [pathSegments]
  infer_instance

instance (inExpression : Bool) : Keeps (path grammar inExpression) := by
  rw [path]
  infer_instance

instance (inExpression : Bool) : Keeps (qualifiedPath grammar inExpression) := by
  rw [qualifiedPath]
  dsimp only
  infer_instance

instance (isSum : Bool) : Keeps (resultType grammar isSum) := by
  rw [resultType]
  infer_instance

theorem begins_separator_of_opening {lexemes : List Lexeme} {bracket : Char}
    (hopening : (Form.opening bracket).begins lexemes = true) :
    (Form.sign "::").begins lexemes = false := by
  cases lexemes with
  | nil => cases hopening
  | cons lexeme rest =>
      simp only [Form.begins, List.head?_cons, Option.any_some, Form.isFormOf, Bool.and_eq_true,
        decide_eq_true_eq] at hopening
      change beginsWithSign [':', ':'] (lexeme :: rest) = false
      simp [beginsWithSign, hopening.1]

instance : Keeps (functionTypes grammar) where
  copies {before after result} hsimple hrun := by
    rw [functionTypes] at hrun
    obtain ⟨_, _, hat, hrest⟩ := run_bind_eq_some_iff.mp hrun
    cases hat
    obtain ⟨_, _, hseparator, hrest⟩ := run_bind_eq_some_iff.mp hrest
    cases hseparator
    rw [hsimple.not_separator_parenthesis, Bool.or_false] at hrest
    split at hrest
    · rename_i hopening
      obtain ⟨_, _, hskip, hrest⟩ := run_bind_eq_some_iff.mp hrest
      rw [run_skipIf, begins_separator_of_opening hopening] at hskip
      cases hskip
      exact Keeps.copies hsimple hrest
    · cases hrest
      exact .refl before

instance : Keeps expansion := by
  rw [expansion]
  infer_instance

instance : Keeps isAtExpansion := by
  rw [isAtExpansion]
  infer_instance

instance : Keeps isAtPath := by
  rw [isAtPath]
  infer_instance

instance (isSum : Bool) : Keeps (furtherBounds grammar isSum) := by
  rw [furtherBounds]
  infer_instance

instance (isSum : Bool) : Keeps (sumOfBounds grammar isSum) := by
  rw [sumOfBounds]
  infer_instance

instance : Keeps callingConvention := by
  rw [callingConvention]
  infer_instance

instance (isFirst : Bool) : Keeps (isAtArgumentName isFirst) := by
  rw [isAtArgumentName]
  infer_instance

instance (isFirst : Bool) : Keeps (functionTypeArgument grammar isFirst) := by
  rw [functionTypeArgument]
  dsimp only
  infer_instance

instance : Keeps (functionType grammar) := by
  rw [functionType]
  infer_instance

instance : Keeps (traitBound grammar) := by
  rw [traitBound]
  dsimp only
  infer_instance

instance : Keeps (bound grammar) := by
  rw [bound]
  infer_instance

set_option synthInstance.maxSize 100000 in
instance (isSum : Bool) : Keeps (type grammar isSum) := by
  rw [type]
  dsimp only
  infer_instance

/-- Types and bounds of any depth are copied as they are spelled. -/
theorem keepsTypes_grammarUpTo (depth : Nat) : KeepsTypes (grammarUpTo depth) := by
  induction depth with
  | zero => exact ⟨fun _ => inferInstanceAs (Keeps failure), inferInstanceAs (Keeps failure)⟩
  | succ depth ih =>
      constructor
      · intro isSum
        exact inferInstanceAs (Keeps (type (grammarUpTo depth) isSum))
      · exact inferInstanceAs (Keeps (bound (grammarUpTo depth)))

/-- A source in which nothing moves is arranged as it is spelled. -/
theorem IsSimple.spelled_arranged {lexemes : List Lexeme} (hsimple : IsSimple lexemes) :
    spelled (arranged lexemes) = spelled lexemes := by
  rw [arranged]
  split
  · rename_i written hrun
    have hkeeps := (keepsTypes_grammarUpTo (3 * lexemes.length + 3)).type true
    obtain ⟨taken, copy, hremaining, hwritten, hspelled⟩ := hkeeps.copies hsimple hrun
    rw [List.append_nil] at hremaining hwritten
    change written = copy.reverse at hwritten
    change lexemes = taken at hremaining
    rw [hwritten, List.reverse_reverse, hspelled, hremaining]
  · rfl

end FieldWiring.Source.Arrangement
