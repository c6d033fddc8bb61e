import Mathlib.Data.List.Basic
import FieldWiring.Resolution

/-!
# The getter of a type

A type name is cut behind its last separator in exactly one way, and a getter is read from
what stands there alone: the value prefix is taken off once, if it is in front.  Qualifiers
do not matter, a prefix that has a separator itself is never found, and a getter is empty
only where nothing stands behind the last separator or nothing but the prefix.
-/

namespace FieldWiring

theorem Text.withoutStart_of_not_isPrefix {start text : List Char} (habsent : ¬ start <+: text) :
    withoutStart start text = text := by
  rw [withoutStart]
  cases hfound : start.isPrefixOf? text with
  | none => rfl
  | some rest => exact absurd ⟨rest, List.isPrefixOf?_eq_some_iff_append_eq.mp hfound⟩ habsent

namespace Naming

variable {naming : Naming} {typeName qualifier segment name rest start : String}

/-! ## Cutting behind the last separator -/

/-- The last segment of a type is behind all of its qualifiers. -/
def lastSegment (typeName : String) : String :=
  String.ofList (Text.afterLast isSeparator typeName.toList)

def IsSegment (text : String) : Prop := ∀ c ∈ text.toList, isSeparator c = false

instance (text : String) : Decidable (IsSegment text) :=
  decidable_of_iff (text.toList.all (fun c => !isSeparator c) = true) (by simp [IsSegment])

def EndsInSeparator (text : String) : Prop :=
  ∃ front stop, text.toList = front ++ [stop] ∧ isSeparator stop = true

/-- The separators that stand between qualifiers. -/
def separators : List String := [".", ":", "::"]

theorem endsInSeparator_of_mem_separators {separator : String} (hmem : separator ∈ separators) :
    EndsInSeparator separator := by
  simp only [separators, List.mem_cons, List.not_mem_nil, or_false] at hmem
  rcases hmem with rfl | rfl | rfl
  · exact ⟨[], '.', rfl, rfl⟩
  · exact ⟨[], ':', rfl, rfl⟩
  · exact ⟨[':'], ':', rfl, rfl⟩

/-- The type name is cut into a qualifier with its separator, if there is any, and the segment
behind it. -/
structure Splits (typeName qualifier segment : String) : Prop where
  whole : typeName = qualifier ++ segment
  qualifier : qualifier = "" ∨ EndsInSeparator qualifier
  segment : IsSegment segment

theorem EndsInSeparator.append_left {text : String} (hends : EndsInSeparator text)
    (front : String) : EndsInSeparator (front ++ text) := by
  obtain ⟨others, stop, htext, hstop⟩ := hends
  refine ⟨front.toList ++ others, stop, ?_, hstop⟩
  rw [String.toList_append, htext, List.append_assoc]

/-- The segment behind the qualifier is the last one. -/
theorem Splits.segment_eq (hsplits : Splits typeName qualifier segment) :
    segment = lastSegment typeName := by
  rw [lastSegment, hsplits.whole, String.toList_append]
  rcases hsplits.qualifier with rfl | ⟨front, stop, hqualifier, hstop⟩
  · rw [String.toList_empty, List.nil_append, Text.afterLast_eq_self hsplits.segment,
      String.ofList_toList]
  · rw [hqualifier, List.append_assoc, List.singleton_append,
      Text.afterLast_append_cons_of_free hstop front hsplits.segment, String.ofList_toList]

theorem exists_splits (typeName : String) :
    ∃ qualifier, Splits typeName qualifier (lastSegment typeName) := by
  refine ⟨String.ofList (Text.throughLast isSeparator typeName.toList), ?_, ?_, ?_⟩
  · rw [lastSegment, ← String.ofList_append, Text.throughLast_append_afterLast,
      String.ofList_toList]
  · rcases Text.throughLast_eq_nil_or isSeparator typeName.toList with hnil | hends
    · left
      rw [hnil, String.ofList_nil]
    · right
      rwa [EndsInSeparator, String.toList_ofList]
  · intro c hmem
    rw [lastSegment, String.toList_ofList] at hmem
    exact Text.not_stops_of_mem_afterLast hmem

/-- A type name is cut in one way only. -/
theorem Splits.unique {otherQualifier otherSegment : String}
    (hsplits : Splits typeName qualifier segment)
    (hother : Splits typeName otherQualifier otherSegment) :
    otherQualifier = qualifier ∧ otherSegment = segment := by
  have hsegment : otherSegment = segment := hother.segment_eq.trans hsplits.segment_eq.symm
  refine ⟨?_, hsegment⟩
  have hwhole := hother.whole.symm.trans hsplits.whole
  rw [hsegment] at hwhole
  exact (String.append_left_inj segment).mp hwhole

/-- A further qualifier in front leaves the segment as it is. -/
theorem Splits.qualify (hsplits : Splits typeName qualifier segment) {front : String}
    (hfront : EndsInSeparator front) : Splits (front ++ typeName) (front ++ qualifier) segment where
  whole := by rw [hsplits.whole, String.append_assoc]
  qualifier := by
    right
    rcases hsplits.qualifier with rfl | hends
    · rwa [String.append_empty]
    · exact hends.append_left front
  segment := hsplits.segment

/-- Nothing is left behind a separator at the end. -/
theorem Splits.segment_eq_empty_iff (hsplits : Splits typeName qualifier segment) :
    segment = "" ↔ typeName = "" ∨ EndsInSeparator typeName := by
  constructor
  · rintro rfl
    rw [hsplits.whole, String.append_empty]
    exact hsplits.qualifier
  · intro h
    have hwhole : Splits typeName typeName "" := ⟨String.append_empty.symm, h, by simp [IsSegment]⟩
    exact (hwhole.unique hsplits).2

/-! ## Taking the prefix off -/

/-- What is left of a name when the start is taken off it once, if the name begins with it. -/
inductive Leaves (start : String) : String → String → Prop where
  | stripped (rest : String) : Leaves start (start ++ rest) rest
  | kept {name : String} (habsent : ¬ start.toList <+: name.toList) : Leaves start name name

theorem Leaves.eq_or (hleaves : Leaves start name rest) : name = start ++ rest ∨ rest = name := by
  cases hleaves with
  | stripped => exact Or.inl rfl
  | kept => exact Or.inr rfl

theorem Leaves.of_append (hleaves : Leaves start (start ++ name) rest) : rest = name := by
  generalize hwhole : start ++ name = whole at hleaves
  cases hleaves with
  | stripped => exact ((String.append_right_inj start).mp hwhole).symm
  | kept habsent =>
      refine absurd ?_ habsent
      rw [← hwhole, String.toList_append]
      exact List.prefix_append _ _

theorem Leaves.suffix (hleaves : Leaves start name rest) : rest.toList <:+ name.toList := by
  cases hleaves with
  | stripped =>
      rw [String.toList_append]
      exact List.suffix_append _ _
  | kept => exact List.suffix_refl _

/-- Nothing is left of the start alone. -/
theorem Leaves.eq_empty_iff (hleaves : Leaves start name rest) :
    rest = "" ↔ name = "" ∨ name = start := by
  constructor
  · rintro rfl
    cases hleaves with
    | stripped => exact Or.inr String.append_empty
    | kept => exact Or.inl rfl
  · rintro (rfl | rfl)
    · exact String.toList_eq_nil_iff.mp (List.suffix_nil.mp hleaves.suffix)
    · have hwhole : Leaves name (name ++ "") rest := by rwa [String.append_empty]
      exact hwhole.of_append

/-- A start with a separator is not found in front of a segment. -/
theorem Leaves.eq_of_not_isSegment (hleaves : Leaves start segment rest)
    (hsegment : IsSegment segment) (hstart : ¬ IsSegment start) : rest = segment := by
  cases hleaves with
  | stripped =>
      exfalso
      apply hstart
      intro c hmem
      apply hsegment
      rw [String.toList_append]
      exact List.mem_append_left _ hmem
  | kept => rfl

/-- A getter is what the value prefix leaves of the last segment. -/
theorem leaves_getter (naming : Naming) (typeName : String) :
    Leaves naming.valuePrefix (lastSegment typeName) (naming.getter typeName) := by
  have hsegment : (lastSegment typeName).toList = Text.afterLast isSeparator typeName.toList :=
    String.toList_ofList
  rw [getter, ← hsegment]
  by_cases hstarts : naming.valuePrefix.toList <+: (lastSegment typeName).toList
  · obtain ⟨rest, hrest⟩ := hstarts
    have hwhole : lastSegment typeName = naming.valuePrefix ++ String.ofList rest := by
      rw [← String.toList_inj, String.toList_append, String.toList_ofList, hrest]
    rw [← hrest, Text.withoutStart_append, hwhole]
    exact .stripped _
  · rw [Text.withoutStart_of_not_isPrefix hstarts, String.ofList_toList]
    exact .kept hstarts

/-! ## What a getter is read from -/

theorem isSegment_of_suffix (hsegment : IsSegment segment)
    (hsuffix : rest.toList <:+ segment.toList) : IsSegment rest := by
  intro c hmem
  exact hsegment c (hsuffix.subset hmem)

/-- Types with the same last segment have the same getter. -/
theorem getter_eq_of_splits {other otherQualifier : String}
    (hsplits : Splits typeName qualifier segment) (hother : Splits other otherQualifier segment)
    (naming : Naming) : naming.getter typeName = naming.getter other := by
  have hsegment : lastSegment typeName = lastSegment other :=
    hsplits.segment_eq.symm.trans hother.segment_eq
  rw [lastSegment, lastSegment, String.ofList_inj] at hsegment
  rw [getter, getter, hsegment]

/-- A getter does not depend on qualifiers. -/
theorem getter_append {front : String} (hfront : EndsInSeparator front) (naming : Naming)
    (typeName : String) : naming.getter (front ++ typeName) = naming.getter typeName := by
  obtain ⟨qualifier, hsplits⟩ := exists_splits typeName
  exact getter_eq_of_splits (hsplits.qualify hfront) hsplits naming

/-- A type name is cut behind its last separator in one way, and its getter is what the value
prefix, taken off once if it is there, leaves of the segment behind.  So a getter is a part of
the type name from its end on and has no separator, and qualifiers do not change it.  A prefix
with a separator is never taken off, and one without is always found again behind a qualifier.
A getter is empty exactly if the type name is, or ends in a separator, or if its last segment is
the prefix. -/
theorem getter_reads_last_segment (naming : Naming) :
    (∀ typeName, ∃ qualifier segment, Splits typeName qualifier segment ∧
      (∀ front name, Splits typeName front name → front = qualifier ∧ name = segment) ∧
      Leaves naming.valuePrefix segment (naming.getter typeName) ∧
      (naming.getter typeName = "" ↔
        typeName = "" ∨ EndsInSeparator typeName ∨ segment = naming.valuePrefix) ∧
      (¬ IsSegment naming.valuePrefix → naming.getter typeName = segment)) ∧
    (∀ typeName, (naming.getter typeName).toList <:+ typeName.toList ∧
      IsSegment (naming.getter typeName)) ∧
    (∀ front typeName, ∀ separator ∈ separators,
      naming.getter (front ++ separator ++ typeName) = naming.getter typeName) ∧
    ∀ qualifier name, qualifier = "" ∨ EndsInSeparator qualifier → IsSegment name →
      IsSegment naming.valuePrefix →
      naming.getter (qualifier ++ naming.valuePrefix ++ name) = name := by
  refine ⟨?_, ?_, ?_, ?_⟩
  · intro typeName
    obtain ⟨qualifier, hsplits⟩ := exists_splits typeName
    have hleaves := leaves_getter naming typeName
    refine ⟨qualifier, lastSegment typeName, hsplits, fun _ _ => hsplits.unique, hleaves, ?_, ?_⟩
    · rw [hleaves.eq_empty_iff, hsplits.segment_eq_empty_iff, or_assoc]
    · exact hleaves.eq_of_not_isSegment hsplits.segment
  · intro typeName
    obtain ⟨qualifier, hsplits⟩ := exists_splits typeName
    have hsuffix := (leaves_getter naming typeName).suffix
    refine ⟨hsuffix.trans ?_, isSegment_of_suffix hsplits.segment hsuffix⟩
    nth_rewrite 2 [hsplits.whole]
    rw [String.toList_append]
    exact List.suffix_append _ _
  · intro front typeName separator hmem
    have hends := (endsInSeparator_of_mem_separators hmem).append_left front
    exact getter_append hends naming typeName
  · intro qualifier name hqualifier hname hvalue
    have hsplits : Splits (qualifier ++ naming.valuePrefix ++ name) qualifier
        (naming.valuePrefix ++ name) := by
      refine ⟨String.append_assoc, hqualifier, ?_⟩
      intro c hmem
      rw [String.toList_append, List.mem_append] at hmem
      exact hmem.elim (hvalue c) (hname c)
    have hleaves := leaves_getter naming (qualifier ++ naming.valuePrefix ++ name)
    rw [← hsplits.segment_eq] at hleaves
    exact hleaves.of_append

/-- Qualifiers of both kinds stand in front of a getter without changing it, and a prefix that
could only be found across a separator is not taken off. -/
theorem getter_reads_last_segment_user :
    ({} : Naming).getter ("com.example" ++ "::" ++ "b.Preference_User") =
        ({} : Naming).getter "b.Preference_User" ∧
      EndsInSeparator "b." ∧ IsSegment "User" ∧ IsSegment ({} : Naming).valuePrefix ∧
      ({} : Naming).getter ("b." ++ ({} : Naming).valuePrefix ++ "User") = "User" ∧
      ¬ IsSegment "b.U" ∧ ({ valuePrefix := "b.U" } : Naming).getter "b.User" = "User" := by
  obtain ⟨-, -, hqualified, hfound⟩ := getter_reads_last_segment {}
  obtain ⟨qualifier, segment, -, hunique, -, -, hkept⟩ :=
    (getter_reads_last_segment { valuePrefix := "b.U" }).1 "b.User"
  have hends : EndsInSeparator "b." := ⟨['b'], '.', rfl, rfl⟩
  have huser : IsSegment "User" := by decide
  have hplain : IsSegment ({} : Naming).valuePrefix := by decide
  have hdotted : ¬ IsSegment "b.U" := by decide
  refine ⟨hqualified _ _ "::" (by decide), hends, huser, hplain,
    hfound "b." "User" (Or.inr hends) huser hplain, hdotted, ?_⟩
  rw [(hunique "b." "User" ⟨rfl, Or.inr hends, huser⟩).2]
  exact hkept hdotted

end Naming

end FieldWiring
