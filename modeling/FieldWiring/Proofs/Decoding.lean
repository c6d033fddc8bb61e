import Mathlib.Data.List.Basic
import FieldWiring.Style

/-!
# Sources determine their injectors

A source is read from its front.  Rows end at line feeds, a statement splits at its first
full stop and then at its first space, and a parameter splits at its last space, so an
injector can be recovered whenever its texts keep clear of these marks.  The style is the
same for both sides of a comparison, and its own texts are cancelled rather than read.
-/

namespace FieldWiring

namespace Text

theorem unlines_append (front back : List (List Char)) :
    unlines (front ++ back) = unlines front ++ unlines back := by
  simp [unlines]

end Text

/-! ## Injectors whose texts keep clear of the marks -/

/-- The statement stands on one row and can be split at its marks. -/
structure Assignment.IsLineWise (statement : Assignment) : Prop where
  receiver : '\n' ∉ statement.receiver.toList
  fieldName : '\n' ∉ statement.fieldName.toList
  accessor : '\n' ∉ statement.accessor.toList
  receiver_undotted : '.' ∉ statement.receiver.toList
  fieldName_unspaced : ' ' ∉ statement.fieldName.toList

namespace Injector

/-- The injector's texts stand on one row each, and its parameter and statements can be
split at their marks. -/
structure IsLineWise (injector : Injector) : Prop where
  name : '\n' ∉ injector.name.toList
  parameterName : '\n' ∉ injector.parameter.name.toList
  typeName : '\n' ∉ injector.parameter.typeName.toList
  parameterName_unspaced : ' ' ∉ injector.parameter.name.toList
  statements : ∀ statement ∈ injector.statements, statement.IsLineWise

/-- The injectors differ at most in whether their parameters may be null. -/
structure SameUpToNull (left right : Injector) : Prop where
  name : left.name = right.name
  parameterName : left.parameter.name = right.parameter.name
  typeName : left.parameter.typeName = right.parameter.typeName
  statements : left.statements = right.statements

/-- Injectors whose parameters agree about being null are the same. -/
theorem SameUpToNull.eq {left right : Injector} (hsame : left.SameUpToNull right)
    (hnull : left.parameter.nonNull = right.parameter.nonNull) : left = right := by
  obtain ⟨name, ⟨parameterName, typeName, nonNull⟩, statements⟩ := left
  obtain ⟨hname, hparameterName, htypeName, hstatements⟩ := hsame
  subst hname hparameterName htypeName hstatements hnull
  rfl

end Injector

namespace Style

open Text

/-- The characters of rows, each with its line feed. -/
def written (rows : List String) : List Char := unlines (rows.map String.toList)

@[simp]
theorem written_nil : written [] = [] := rfl

@[simp]
theorem written_cons (row : String) (rows : List String) :
    written (row :: rows) = row.toList ++ '\n' :: written rows := by
  rw [written, List.map_cons, unlines_cons, written]

theorem written_append (front back : List String) :
    written (front ++ back) = written front ++ written back := by
  rw [written, List.map_append, unlines_append, written, written]

theorem toList_render (style : Style) (injector : Injector) :
    (style.render injector).toList = written (style.rows injector) := String.toList_ofList

/-- A row that holds no line feed can be told apart from what follows it. -/
theorem written_cons_inj {left right : String} {leftRows rightRows : List String}
    (hleft : '\n' ∉ left.toList) (hright : '\n' ∉ right.toList)
    (heq : written (left :: leftRows) = written (right :: rightRows)) :
    left = right ∧ written leftRows = written rightRows := by
  rw [written_cons, written_cons] at heq
  have hcut := append_cons_inj hleft hright heq
  exact ⟨String.toList_inj.mp hcut.1, hcut.2⟩

/-! ## Statements -/

/-- A statement without line feeds is one row. -/
theorem newline_notMem_statementRow {statement : Assignment} (hstatement : statement.IsLineWise) :
    '\n' ∉ (statementRow statement).toList := by
  simp [statementRow, Assignment.text, hstatement.receiver, hstatement.fieldName,
    hstatement.accessor]

/-- A statement can be read back from its row. -/
theorem statementRow_injective {left right : Assignment} (hleft : left.IsLineWise)
    (hright : right.IsLineWise) (heq : statementRow left = statementRow right) : left = right := by
  have hchars := congrArg String.toList heq
  simp only [statementRow, Assignment.text, String.toList_append, List.append_assoc] at hchars
  have hdot := append_cons_inj hleft.receiver_undotted hright.receiver_undotted
    (List.append_cancel_left hchars)
  have hspace := append_cons_inj hleft.fieldName_unspaced hright.fieldName_unspaced hdot.2
  have haccessor := List.append_cancel_right (List.append_cancel_left hspace.2)
  obtain ⟨receiver, fieldName, accessor⟩ := left
  rw [Assignment.mk.injEq]
  exact ⟨String.toList_inj.mp hdot.1, String.toList_inj.mp hspace.1, String.toList_inj.mp haccessor⟩

/-- A statement is indented further than the brace that ends the constructor. -/
theorem statementRow_ne_brace (statement : Assignment) : statementRow statement ≠ "  \x7d" := by
  intro heq
  have hchars := congrArg String.toList heq
  rw [statementRow, String.toList_append, String.toList_append] at hchars
  cases hchars

/-- Statements can be read back from their rows, which end where the first brace stands. -/
theorem statements_eq_of_written_eq {left right : List Assignment} {closing : List String}
    (hleft : ∀ statement ∈ left, statement.IsLineWise)
    (hright : ∀ statement ∈ right, statement.IsLineWise)
    (heq : written (left.map statementRow ++ "  \x7d" :: closing) =
      written (right.map statementRow ++ "  \x7d" :: closing)) : left = right := by
  have hbrace : '\n' ∉ "  \x7d".toList := by decide
  induction left generalizing right with
  | nil =>
      cases right with
      | nil => rfl
      | cons statement right =>
          have hstatement := newline_notMem_statementRow (hright statement List.mem_cons_self)
          have hrow := written_cons_inj hbrace hstatement heq
          exact absurd hrow.1.symm (statementRow_ne_brace statement)
  | cons statement left ih =>
      obtain ⟨hstatement, hleft⟩ := List.forall_mem_cons.mp hleft
      cases right with
      | nil =>
          have hrow := written_cons_inj (newline_notMem_statementRow hstatement) hbrace heq
          exact absurd hrow.1 (statementRow_ne_brace statement)
      | cons other right =>
          obtain ⟨hother, hright⟩ := List.forall_mem_cons.mp hright
          have hrow := written_cons_inj (newline_notMem_statementRow hstatement)
            (newline_notMem_statementRow hother) heq
          rw [statementRow_injective hstatement hother hrow.1, ih hleft hright hrow.2]

/-! ## Classes -/

variable {left right : Injector} {marker : Option String}

/-- A parameter and the brace behind it, as they stand in the row of the constructor. -/
def parameterText (parameter : Parameter) : String :=
  parameter.typeName ++ " " ++ parameter.name ++ ") \x7b"

/-- A parameter without line feeds stays in its row. -/
theorem newline_notMem_parameterText {injector : Injector} (hinjector : injector.IsLineWise) :
    '\n' ∉ (parameterText injector.parameter).toList := by
  simp [parameterText, hinjector.typeName, hinjector.parameterName]

/-- A type may hold spaces and a name may not, so the last space parts the two. -/
theorem parameterText_inj (hleft : left.IsLineWise) (hright : right.IsLineWise)
    (heq : parameterText left.parameter = parameterText right.parameter) :
    left.parameter.typeName = right.parameter.typeName ∧
      left.parameter.name = right.parameter.name := by
  have hchars := congrArg String.toList heq
  simp only [parameterText, String.toList_append] at hchars
  have hplain := List.append_cancel_right hchars
  rw [List.append_assoc, List.append_assoc] at hplain
  have hspace := append_cons_inj_of_rest hleft.parameterName_unspaced
    hright.parameterName_unspaced hplain
  exact ⟨String.toList_inj.mp hspace.1, String.toList_inj.mp hspace.2⟩

theorem written_constructorRow_cons (marker : Option String) (injector : Injector)
    (rows : List String) :
    written (constructorRow marker injector :: rows) =
      ("  public " ++ injector.name ++ "(" ++ markerText marker).toList ++
        written (parameterText injector.parameter :: rows) := by
  simp only [written_cons, constructorRow, parameterText, String.toList_append, List.append_assoc]

theorem classRows_eq_cons (marker : Option String) (injector : Injector) :
    classRows marker injector =
      ("public class " ++ injector.name ++ " \x7b") :: constructorRow marker injector ::
        (injector.statements.map statementRow ++ ["  \x7d", "\x7d"]) := rfl

/-- A class tells everything about its injector, unless it is whether the parameter may be null. -/
theorem sameUpToNull_of_written_classRows_eq (hleft : left.IsLineWise) (hright : right.IsLineWise)
    (heq : written (classRows marker left) = written (classRows marker right)) :
    left.SameUpToNull right := by
  rw [classRows_eq_cons, classRows_eq_cons] at heq
  have hclass := written_cons_inj (by simp [hleft.name]) (by simp [hright.name]) heq
  have hname : left.name = right.name := by
    have hplain := (String.append_left_inj " \x7b").mp hclass.1
    exact (String.append_right_inj "public class ").mp hplain
  -- The marker may hold line feeds, so it is cancelled before the row is cut.
  have hconstructor := hclass.2
  rw [written_constructorRow_cons, written_constructorRow_cons, hname] at hconstructor
  have hparameter := written_cons_inj (newline_notMem_parameterText hleft)
    (newline_notMem_parameterText hright) (List.append_cancel_left hconstructor)
  obtain ⟨htypeName, hparameterName⟩ := parameterText_inj hleft hright hparameter.1
  exact ⟨hname, hparameterName, htypeName,
    statements_eq_of_written_eq hleft.statements hright.statements hparameter.2⟩

/-- A class does not tell whether the parameter may be null except by its marker. -/
theorem classRows_congr (hsame : left.SameUpToNull right) :
    classRows marker left = classRows marker right := by
  rw [classRows, classRows, constructorRow, constructorRow, hsame.name, hsame.typeName,
    hsame.parameterName, hsame.statements]

/-! ## What stands around the class -/

def rowsBehindPackage (style : Style) (injector : Injector) : List String :=
  importRows (style.marker? injector.parameter) ++
    (headerRows style.header ++ classRows (style.marker? injector.parameter) injector)

theorem render_eq_iff_written_eq {style : Style} :
    style.render left = style.render right ↔
      written (style.rowsBehindPackage left) = written (style.rowsBehindPackage right) := by
  have hrender : ∀ injector, (style.render injector).toList =
      written (packageRows style.package) ++ written (style.rowsBehindPackage injector) := by
    intro injector
    rw [toList_render, rows, List.append_assoc, List.append_assoc, written_append,
      rowsBehindPackage]
  rw [← String.toList_inj, hrender, hrender, List.append_cancel_left_eq]

/-- The letter that an import begins with is seen exactly if there is one. -/
theorem head?_written_rowsBehindPackage (style : Style) (injector : Injector) :
    (written (style.rowsBehindPackage injector)).head? = some 'i' ↔
      (style.marker? injector.parameter).isSome := by
  rw [rowsBehindPackage]
  cases style.marker? injector.parameter with
  | some marker => simp [importRows]
  | none => cases style.header <;> simp [importRows, headerRows, classRows]

/-- Where the style has a marker, the import of the marker tells the rest. -/
theorem nonNull_eq_of_written_eq {style : Style} {marker : String}
    (hmarker : style.nonNullMarker = some marker)
    (heq : written (style.rowsBehindPackage left) = written (style.rowsBehindPackage right)) :
    left.parameter.nonNull = right.parameter.nonNull := by
  have hseen : (style.marker? left.parameter).isSome ↔ (style.marker? right.parameter).isSome := by
    rw [← head?_written_rowsBehindPackage, ← head?_written_rowsBehindPackage, heq]
  have hnull : ∀ parameter, (style.marker? parameter).isSome ↔ parameter.nonNull = true := by
    intro parameter
    cases hparameter : parameter.nonNull <;> simp [marker?, hmarker, hparameter]
  rw [hnull, hnull] at hseen
  exact Bool.eq_iff_iff.mpr hseen

/-- With one marker on both sides, sources differ exactly where the injectors do. -/
theorem render_eq_iff_sameUpToNull {style : Style} (hleft : left.IsLineWise)
    (hright : right.IsLineWise)
    (hmarker : style.marker? left.parameter = style.marker? right.parameter) :
    style.render left = style.render right ↔ left.SameUpToNull right := by
  rw [render_eq_iff_written_eq, rowsBehindPackage, rowsBehindPackage, hmarker]
  constructor
  · intro heq
    simp only [written_append, List.append_cancel_left_eq] at heq
    exact sameUpToNull_of_written_classRows_eq hleft hright heq
  · intro hsame
    rw [classRows_congr hsame]

/-- Injectors whose texts keep clear of the marks have the same source only if they are
the same.  Without a marker of parameters that are never null, a source does not show
whether its parameter is one. -/
theorem render_injective (style : Style) (hleft : left.IsLineWise) (hright : right.IsLineWise) :
    (∀ marker, style.nonNullMarker = some marker →
      (style.render left = style.render right ↔ left = right)) ∧
    (style.nonNullMarker = none →
      (style.render left = style.render right ↔ left.SameUpToNull right)) := by
  constructor
  · intro marker hmarker
    constructor
    · intro heq
      have hnull := nonNull_eq_of_written_eq hmarker (render_eq_iff_written_eq.mp heq)
      have hsame : style.marker? left.parameter = style.marker? right.parameter := by
        rw [marker?, marker?, hnull]
      exact ((render_eq_iff_sameUpToNull hleft hright hsame).mp heq).eq hnull
    · intro heq
      rw [heq]
  · intro hnone
    have hmarker : ∀ parameter, style.marker? parameter = none := by
      intro parameter
      rw [marker?, hnone, ite_self]
    apply render_eq_iff_sameUpToNull hleft hright
    rw [hmarker, hmarker]

/-- A space in a type and a full stop in an accessor do not mislead; only the marker shows
that a parameter is never null. -/
theorem render_injective_activity :
    let user : Assignment := ⟨"injectObject", "user", "App.getInstance().User()"⟩
    let left : Injector := ⟨"Main_Injector", ⟨"injectObject", "final Main", true⟩, [user]⟩
    let right : Injector := ⟨"Main_Injector", ⟨"injectObject", "final Main", false⟩, [user]⟩
    left.IsLineWise ∧ right.IsLineWise ∧
      ({} : Style).render left ≠ ({} : Style).render right ∧
      ({ nonNullMarker := none } : Style).render left =
        ({ nonNullMarker := none } : Style).render right := by
  intro user left right
  have huser : user.IsLineWise := by constructor <;> decide
  have hstatements : ∀ statement ∈ [user], statement.IsLineWise := by
    intro statement hmem
    rwa [List.mem_singleton.mp hmem]
  have hleft : left.IsLineWise :=
    ⟨by decide, by decide, by decide, by decide, hstatements⟩
  have hright : right.IsLineWise :=
    ⟨by decide, by decide, by decide, by decide, hstatements⟩
  refine ⟨hleft, hright, ?_, ?_⟩
  · intro heq
    have hsame := ((render_injective {} hleft hright).1 _ rfl).mp heq
    cases congrArg (fun injector => injector.parameter.nonNull) hsame
  · exact ((render_injective { nonNullMarker := none } hleft hright).2 rfl).mpr
      ⟨rfl, rfl, rfl, rfl⟩

end Style

end FieldWiring
