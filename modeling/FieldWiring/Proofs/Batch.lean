import Mathlib.Data.List.Nodup
import FieldWiring.Generator
import FieldWiring.Proofs.Emission

/-!
# How a batch is decided

The requests of a batch are served one after the other, what they yield is sorted by
name, and the sorted names are searched for neighbours that are equal.  The search finds
the least name that occurs more than once, in whatever order the requests came, and what
is published does not depend on how a sort treats equal names.
-/

namespace FieldWiring

/-! ## Equal neighbours in a sorted list -/

/-- The name occurs more than once, and no lesser one does. -/
structure IsLeastRepeated (names : List String) (name : String) : Prop where
  repeated : 2 ≤ names.count name
  least : ∀ other, 2 ≤ names.count other → name ≤ other

/-- There is at most one least name among those that occur more than once. -/
theorem IsLeastRepeated.unique {names : List String} {left right : String}
    (hleft : IsLeastRepeated names left) (hright : IsLeastRepeated names right) :
    left = right := by
  apply String.le_antisymm
  · exact hleft.least right hright.repeated
  · exact hright.least left hleft.repeated

/-- The order of the names does not matter. -/
theorem IsLeastRepeated.of_perm {left right : List String} {name : String}
    (hperm : left.Perm right) (hname : IsLeastRepeated left name) :
    IsLeastRepeated right name where
  repeated := by
    rw [← hperm.count_eq name]
    exact hname.repeated
  least other hother := by
    apply hname.least other
    rw [hperm.count_eq other]
    exact hother

private theorem head_notMem_of_ne {first second : String} {rest : List String}
    (hsorted : (first :: second :: rest).Pairwise (· ≤ ·)) (hne : first ≠ second) :
    first ∉ second :: rest := by
  obtain ⟨hfirst, htail⟩ := List.pairwise_cons.mp hsorted
  intro hmem
  apply hne
  cases List.mem_cons.mp hmem with
  | inl heq => exact heq
  | inr hlater =>
      apply String.le_antisymm
      · exact hfirst second List.mem_cons_self
      · exact (List.pairwise_cons.mp htail).1 first hlater

private theorem two_le_count_cons_iff {first : String} {names : List String}
    (hnew : first ∉ names) (other : String) :
    2 ≤ (first :: names).count other ↔ 2 ≤ names.count other := by
  by_cases heq : first = other
  · subst heq
    simp [List.count_eq_zero.mpr hnew]
  · rw [List.count_cons_of_ne heq]

/-- A name that occurs once counts for nothing. -/
theorem isLeastRepeated_cons_iff {first name : String} {names : List String}
    (hnew : first ∉ names) :
    IsLeastRepeated (first :: names) name ↔ IsLeastRepeated names name := by
  constructor
  · intro hname
    refine ⟨(two_le_count_cons_iff hnew name).mp hname.repeated, ?_⟩
    intro other hother
    exact hname.least other ((two_le_count_cons_iff hnew other).mpr hother)
  · intro hname
    refine ⟨(two_le_count_cons_iff hnew name).mpr hname.repeated, ?_⟩
    intro other hother
    exact hname.least other ((two_le_count_cons_iff hnew other).mp hother)

/-- In a sorted list the first name that is followed by itself is the least one that
occurs more than once. -/
theorem adjacentDuplicate?_eq_some_iff {names : List String}
    (hsorted : names.Pairwise (· ≤ ·)) {name : String} :
    adjacentDuplicate? names = some name ↔ IsLeastRepeated names name := by
  fun_induction adjacentDuplicate? names with
  | case1 first rest =>
      have hleast : IsLeastRepeated (first :: first :: rest) first := by
        refine ⟨by simp, ?_⟩
        intro other hother
        have hmem : other ∈ first :: first :: rest := List.count_pos_iff.mp (by omega)
        cases List.mem_cons.mp hmem with
        | inl heq =>
            subst heq
            exact String.le_refl other
        | inr hlater => exact (List.pairwise_cons.mp hsorted).1 other hlater
      constructor
      · intro hfound
        cases hfound
        exact hleast
      · intro hname
        rw [hleast.unique hname]
  | case2 first second rest hne ih =>
      rw [isLeastRepeated_cons_iff (head_notMem_of_ne hsorted hne)]
      exact ih hsorted.tail
  | case3 names hshort =>
      constructor
      · intro hnone
        cases hnone
      · intro hname
        have hlength := Nat.le_trans hname.repeated List.count_le_length
        match names, hshort with
        | [], _ => simp at hlength
        | [_], _ => simp at hlength
        | first :: second :: rest, hshort => exact absurd rfl (hshort first second rest)

theorem adjacentDuplicate?_eq_none_iff {names : List String}
    (hsorted : names.Pairwise (· ≤ ·)) :
    adjacentDuplicate? names = none ↔ names.Nodup := by
  fun_induction adjacentDuplicate? names with
  | case1 first rest => simp
  | case2 first second rest hne ih =>
      rw [List.nodup_cons, ih hsorted.tail]
      exact (and_iff_right (head_notMem_of_ne hsorted hne)).symm
  | case3 names hshort =>
      match names, hshort with
      | [], _ => simp
      | [_], _ => simp
      | first :: second :: rest, hshort => exact absurd rfl (hshort first second rest)

/-! ## Publishing what a sort by name yields -/

def SortedByInjectorName (injectors : List Injector) : Prop :=
  (injectors.map Injector.name).Pairwise (· ≤ ·)

/-- Injectors in strictly increasing order are those in order whose names are distinct. -/
theorem increasing_iff {injectors : List Injector} :
    (injectors.map Injector.name).Pairwise (· < ·) ↔
      SortedByInjectorName injectors ∧ (injectors.map Injector.name).Nodup := by
  constructor
  · intro hincreasing
    constructor
    · exact hincreasing.imp fun hlt => String.not_lt.mp (String.lt_asymm hlt)
    · exact hincreasing.imp String.ne_of_lt
  · intro h
    obtain ⟨hsorted, hnodup⟩ := h
    apply List.Pairwise.imp₂ _ hsorted hnodup
    intro first second hle hne
    apply String.not_le.mp
    intro hge
    exact hne (String.le_antisymm hle hge)

/-- Sorted injectors of which two share a name are refused for the least such name. -/
theorem publish_of_isLeastRepeated {injectors : List Injector} {name : String}
    (hsorted : SortedByInjectorName injectors)
    (hname : IsLeastRepeated (injectors.map Injector.name) name) :
    publish injectors = ⟨[], .error (.duplicateInjector name)⟩ := by
  rw [publish, (adjacentDuplicate?_eq_some_iff hsorted).mpr hname]
  rfl

theorem publish_of_nodup {injectors : List Injector} (hsorted : SortedByInjectorName injectors)
    (hnodup : (injectors.map Injector.name).Nodup) :
    publish injectors = ⟨[.published injectors.length], .ok injectors⟩ := by
  rw [publish, (adjacentDuplicate?_eq_none_iff hsorted).mpr hnodup]
  rfl

theorem exists_isLeastRepeated {injectors : List Injector}
    (hsorted : SortedByInjectorName injectors)
    (hrepeated : ¬ (injectors.map Injector.name).Nodup) :
    ∃ name, IsLeastRepeated (injectors.map Injector.name) name := by
  cases hfound : adjacentDuplicate? (injectors.map Injector.name) with
  | none => exact absurd ((adjacentDuplicate?_eq_none_iff hsorted).mp hfound) hrepeated
  | some name => exact ⟨name, (adjacentDuplicate?_eq_some_iff hsorted).mp hfound⟩

/-- Elements of distinct keys have only one order by key. -/
theorem eq_of_perm_of_pairwise_map {α : Type} {key : α → String} {left right : List α}
    (hperm : left.Perm right) (hnodup : (left.map key).Nodup)
    (hleft : (left.map key).Pairwise (· ≤ ·)) (hright : (right.map key).Pairwise (· ≤ ·)) :
    left = right := by
  apply hperm.eq_of_pairwise _ (List.pairwise_map.mp hleft) (List.pairwise_map.mp hright)
  intro first second hfirst hsecond hle hge
  have hkey : key first = key second := String.le_antisymm hle hge
  exact List.inj_on_of_nodup_map hnodup hfirst (hperm.mem_iff.mpr hsecond) hkey

/-- Two orders by name of the same injectors are published alike. -/
theorem publish_eq_of_perm {left right : List Injector} (hperm : left.Perm right)
    (hleft : SortedByInjectorName left) (hright : SortedByInjectorName right) :
    publish left = publish right := by
  by_cases hnodup : (left.map Injector.name).Nodup
  · rw [eq_of_perm_of_pairwise_map hperm hnodup hleft hright]
  · obtain ⟨name, hname⟩ := exists_isLeastRepeated hleft hnodup
    have hother := hname.of_perm (hperm.map Injector.name)
    calc
      publish left = ⟨[], .error (.duplicateInjector name)⟩ :=
        publish_of_isLeastRepeated hleft hname
      _ = publish right := (publish_of_isLeastRepeated hright hother).symm

structure NameSort where
  sort : List Injector → List Injector
  perm : ∀ injectors, (sort injectors).Perm injectors
  sorted : ∀ injectors, SortedByInjectorName (sort injectors)

section Order

variable {α : Type} (key : α → String)

theorem decide_key_le_trans (first second third : α)
    (hfirst : decide (key first ≤ key second) = true)
    (hsecond : decide (key second ≤ key third) = true) :
    decide (key first ≤ key third) = true := by
  apply decide_eq_true
  exact String.le_trans (of_decide_eq_true hfirst) (of_decide_eq_true hsecond)

theorem decide_key_le_total (first second : α) :
    (decide (key first ≤ key second) || decide (key second ≤ key first)) = true := by
  simpa using String.le_total (key first) (key second)

theorem pairwise_map_mergeSort (elements : List α) :
    ((elements.mergeSort fun left right => decide (key left ≤ key right)).map key).Pairwise
      (· ≤ ·) := by
  have hsorted := List.pairwise_mergeSort (decide_key_le_trans key) (decide_key_le_total key)
    elements
  exact List.pairwise_map.mpr (hsorted.imp of_decide_eq_true)

theorem pairwise_map_merge {left right : List α} (hleft : (left.map key).Pairwise (· ≤ ·))
    (hright : (right.map key).Pairwise (· ≤ ·)) :
    ((left.merge right fun first second => decide (key first ≤ key second)).map key).Pairwise
      (· ≤ ·) := by
  have hsorted := List.pairwise_merge (decide_key_le_trans key) (decide_key_le_total key) left right
    ((List.pairwise_map.mp hleft).imp decide_eq_true)
    ((List.pairwise_map.mp hright).imp decide_eq_true)
  exact List.pairwise_map.mpr (hsorted.imp of_decide_eq_true)

end Order

/-- Sorting by name so that injectors of one name keep their order. -/
def NameSort.stable : NameSort where
  sort injectors := injectors.mergeSort fun left right => decide (left.name ≤ right.name)
  perm injectors := List.mergeSort_perm injectors _
  sorted injectors := pairwise_map_mergeSort Injector.name injectors

/-! ## One request -/

namespace Generator

variable {generator : Generator} {request : Request}

theorem generate_of_unknown (hunknown : generator.directory request.component = none) :
    generator.generate request =
      ⟨[], .error (.unknownComponent request.component request.target.simpleName)⟩ := by
  rw [generate, hunknown]
  rfl

theorem generate_of_owner {owner : Component}
    (howner : generator.directory request.component = some owner) :
    generator.generate request =
      ⟨.generating request.component request.target.simpleName ::
          (Injector.emit generator.naming owner request.target).events,
        ((Injector.emit generator.naming owner request.target).mapError .unresolvable).result⟩ := by
  rw [generate, howner]
  rfl

/-- A request is served by the injector that wires its target, and by no other. -/
theorem generate_eq_ok_iff {injector : Injector} :
    (generator.generate request).result = .ok injector ↔
      ∃ owner, generator.directory request.component = some owner ∧
        Injector.Wires generator.naming owner request.target injector := by
  cases howner : generator.directory request.component with
  | none =>
      rw [generate_of_unknown howner]
      simp
  | some owner =>
      rw [generate_of_owner howner, Logged.mapError_eq_ok_iff, Injector.emit_eq_ok_iff]
      simp

theorem name_of_generate_eq_ok {injector : Injector}
    (hinjector : (generator.generate request).result = .ok injector) :
    injector.name = generator.naming.injectorName request.target.simpleName := by
  obtain ⟨owner, -, hwires⟩ := generate_eq_ok_iff.mp hinjector
  exact hwires.name

/-! ## All requests -/

variable {requests : List Request}

/-- The requests yield these injectors, one each and in order. -/
def Serves (generator : Generator) (requests : List Request) (injectors : List Injector) : Prop :=
  List.Forall₂ (fun request injector => (generator.generate request).result = .ok injector)
    requests injectors

theorem Serves.names {injectors : List Injector} (hserves : generator.Serves requests injectors) :
    injectors.map Injector.name =
      (requests.map fun request => request.target.simpleName).map
        generator.naming.injectorName := by
  induction hserves with
  | nil => rfl
  | cons hhead _ ih =>
      rw [List.map_cons, List.map_cons, List.map_cons, ih, name_of_generate_eq_ok hhead]

/-- Two targets share an injector name exactly when they share their simple name. -/
theorem Serves.nodup_iff {injectors : List Injector}
    (hserves : generator.Serves requests injectors) :
    (injectors.map Injector.name).Nodup ↔
      (requests.map fun request => request.target.simpleName).Nodup := by
  rw [hserves.names]
  apply List.nodup_map_iff
  intro left right heq
  exact generator.naming.injectorName_injective heq

/-- Generates the injectors of all requests and publishes them in the order of any sort
by name. -/
def generateAllBy (generator : Generator) (sort : NameSort) (requests : List Request) :
    Logged GenerationError (List Injector) := do
  let injectors ← Logged.traverse generator.generate requests
  publish (sort.sort injectors)

theorem generateAll_eq_generateAllBy :
    generator.generateAll requests = generator.generateAllBy .stable requests := rfl

/-- How a batch is decided. -/
inductive Decides (generator : Generator) (requests : List Request) :
    Except GenerationError (List Injector) → Prop where
  /-- The first request that fails decides the batch, whatever the others yield. -/
  | refused {front back : List Request} {request : Request} {fault : GenerationError}
      (hsplit : requests = front ++ request :: back)
      (hfront : ∀ earlier ∈ front, ∃ injector, (generator.generate earlier).result = .ok injector)
      (hfault : (generator.generate request).result = .error fault) :
      Decides generator requests (.error fault)
  /-- Otherwise the least name that two of the injectors share does. -/
  | repeated {injectors : List Injector} {name : String}
      (hserves : generator.Serves requests injectors)
      (hname : IsLeastRepeated (injectors.map Injector.name) name) :
      Decides generator requests (.error (.duplicateInjector name))
  /-- Otherwise every injector is published, in strictly increasing order of names. -/
  | published {injectors published : List Injector}
      (hserves : generator.Serves requests injectors)
      (hperm : published.Perm injectors)
      (hincreasing : (published.map Injector.name).Pairwise (· < ·)) :
      Decides generator requests (.ok published)

variable {sort : NameSort}

theorem generateAllBy_of_serves {injectors : List Injector}
    (hserves : generator.Serves requests injectors) :
    (generator.generateAllBy sort requests).result = (publish (sort.sort injectors)).result := by
  have htraverse := Logged.traverse_eq_ok_iff.mpr hserves
  rw [generateAllBy, Logged.eq_of_result_eq htraverse, Logged.bind_ok]

/-- The first request that is refused decides, whatever the sort is. -/
theorem generateAllBy_of_refused {fault : GenerationError}
    (hfault : (Logged.traverse generator.generate requests).result = .error fault) :
    (generator.generateAllBy sort requests).result = .error fault := by
  rw [generateAllBy, Logged.eq_of_result_eq hfault, Logged.bind_error]

/-- No sort by name shows in what a batch yields, the events included. -/
theorem generateAllBy_eq (left right : NameSort) :
    generator.generateAllBy left requests = generator.generateAllBy right requests := by
  have hpublish : ∀ injectors, publish (left.sort injectors) = publish (right.sort injectors) := by
    intro injectors
    apply publish_eq_of_perm
    · exact (left.perm injectors).trans (right.perm injectors).symm
    · exact left.sorted injectors
    · exact right.sorted injectors
  simp only [generateAllBy, hpublish]

/-- Every batch is decided, whatever the sort is. -/
theorem decides_generateAllBy :
    generator.Decides requests (generator.generateAllBy sort requests).result := by
  cases htraverse : (Logged.traverse generator.generate requests).result with
  | error fault =>
      obtain ⟨request, hfirst, hfault⟩ := Logged.traverse_eq_error_iff.mp htraverse
      obtain ⟨front, back, hsplit, hfront, -⟩ := Logged.find?_failsOn_eq_some_iff.mp hfirst
      rw [generateAllBy_of_refused htraverse]
      exact .refused hsplit hfront hfault
  | ok injectors =>
      have hserves : generator.Serves requests injectors := Logged.traverse_eq_ok_iff.mp htraverse
      have hperm := sort.perm injectors
      have hsorted := sort.sorted injectors
      rw [generateAllBy_of_serves hserves]
      by_cases hnodup : ((sort.sort injectors).map Injector.name).Nodup
      · rw [publish_of_nodup hsorted hnodup]
        exact .published hserves hperm (increasing_iff.mpr ⟨hsorted, hnodup⟩)
      · obtain ⟨name, hname⟩ := exists_isLeastRepeated hsorted hnodup
        rw [publish_of_isLeastRepeated hsorted hname]
        exact .repeated hserves (hname.of_perm (hperm.map Injector.name))

theorem Decides.eq {result : Except GenerationError (List Injector)}
    (hdecides : generator.Decides requests result) :
    (generator.generateAllBy sort requests).result = result := by
  cases hdecides with
  | refused hsplit hfront hfault =>
      have hfirst := Logged.find?_failsOn_eq_some_iff.mpr ⟨_, _, hsplit, hfront, _, hfault⟩
      apply generateAllBy_of_refused
      exact Logged.traverse_eq_error_iff.mpr ⟨_, hfirst, hfault⟩
  | @repeated injectors name hserves hname =>
      have hother := hname.of_perm ((sort.perm injectors).map Injector.name).symm
      rw [generateAllBy_of_serves hserves,
        publish_of_isLeastRepeated (sort.sorted injectors) hother]
  | @published injectors published hserves hperm hincreasing =>
      obtain ⟨hsorted, hnodup⟩ := increasing_iff.mp hincreasing
      have hsame : published = sort.sort injectors :=
        eq_of_perm_of_pairwise_map (hperm.trans (sort.perm injectors).symm) hnodup
          hsorted (sort.sorted injectors)
      rw [generateAllBy_of_serves hserves, ← hsame, publish_of_nodup hsorted hnodup]

theorem generateAllBy_succeeds_iff :
    (∃ published, (generator.generateAllBy sort requests).result = .ok published) ↔
      (∀ request ∈ requests, ∃ injector, (generator.generate request).result = .ok injector) ∧
        (requests.map fun request => request.target.simpleName).Nodup := by
  rw [← Logged.traverse_succeeds_iff]
  constructor
  · intro h
    obtain ⟨published, hpublished⟩ := h
    have hdecides : generator.Decides requests (.ok published) := by
      rw [← hpublished]
      exact decides_generateAllBy
    cases hdecides with
    | @published injectors _ hserves hperm hincreasing =>
        obtain ⟨-, hnodup⟩ := increasing_iff.mp hincreasing
        rw [(hperm.map Injector.name).nodup_iff, hserves.nodup_iff] at hnodup
        exact ⟨⟨injectors, Logged.traverse_eq_ok_iff.mpr hserves⟩, hnodup⟩
  · intro h
    obtain ⟨⟨injectors, hinjectors⟩, hnodup⟩ := h
    have hserves : generator.Serves requests injectors := Logged.traverse_eq_ok_iff.mp hinjectors
    rw [← hserves.nodup_iff, ← ((sort.perm injectors).map Injector.name).nodup_iff] at hnodup
    refine ⟨sort.sort injectors, ?_⟩
    rw [generateAllBy_of_serves hserves, publish_of_nodup (sort.sorted injectors) hnodup]

theorem decides_of_generateAll {result : Except GenerationError (List Injector)}
    (hresult : (generator.generateAll requests).result = result) :
    generator.Decides requests result := by
  rw [← hresult, generateAll_eq_generateAllBy]
  exact decides_generateAllBy

theorem not_serves_of_fails {request : Request} {fault : GenerationError}
    (hmem : request ∈ requests) (hfault : (generator.generate request).result = .error fault)
    (injectors : List Injector) : ¬ generator.Serves requests injectors := by
  intro hserves
  have hsucceed := Logged.traverse_succeeds_iff.mp
    ⟨injectors, Logged.traverse_eq_ok_iff.mpr hserves⟩
  obtain ⟨injector, hinjector⟩ := hsucceed request hmem
  rw [hfault] at hinjector
  cases hinjector

theorem Serves.unique {left right : List Injector} (hleft : generator.Serves requests left)
    (hright : generator.Serves requests right) : left = right := by
  have hresult := Logged.traverse_eq_ok_iff.mpr hleft
  rw [Logged.traverse_eq_ok_iff.mpr hright] at hresult
  exact (Except.ok.inj hresult).symm

/-- A batch yields what its requests do, in strictly increasing order of names. -/
theorem generateAll_eq_ok_iff {published : List Injector} :
    (generator.generateAll requests).result = .ok published ↔
      ∃ injectors, generator.Serves requests injectors ∧ published.Perm injectors ∧
        (published.map Injector.name).Pairwise (· < ·) := by
  constructor
  · intro hpublished
    cases decides_of_generateAll hpublished with
    | published hserves hperm hincreasing => exact ⟨_, hserves, hperm, hincreasing⟩
  · intro h
    obtain ⟨injectors, hserves, hperm, hincreasing⟩ := h
    rw [generateAll_eq_generateAllBy]
    exact (Decides.published hserves hperm hincreasing).eq

/-- Published injectors have distinct names in increasing order. -/
theorem increasing_of_published {published : List Injector}
    (hpublished : (generator.generateAll requests).result = .ok published) :
    (published.map Injector.name).Pairwise (· < ·) := by
  obtain ⟨-, -, -, hincreasing⟩ := generateAll_eq_ok_iff.mp hpublished
  exact hincreasing

/-- Requests that yield injectors of distinct names are published together. -/
theorem exists_published {injectors : List Injector} (hserves : generator.Serves requests injectors)
    (hnodup : (injectors.map Injector.name).Nodup) :
    ∃ published, (generator.generateAll requests).result = .ok published ∧
      published.Perm injectors := by
  have hperm := NameSort.stable.perm injectors
  have hdistinct := ((hperm.map Injector.name).nodup_iff).mpr hnodup
  have hincreasing := increasing_iff.mpr ⟨NameSort.stable.sorted injectors, hdistinct⟩
  exact ⟨_, generateAll_eq_ok_iff.mpr ⟨injectors, hserves, hperm, hincreasing⟩, hperm⟩

/-- Requests that all succeed fail together only over a repeated name. -/
theorem generateAll_eq_error_iff_of_serves {injectors : List Injector}
    (hserves : generator.Serves requests injectors) {fault : GenerationError} :
    (generator.generateAll requests).result = .error fault ↔
      ∃ name, IsLeastRepeated (injectors.map Injector.name) name ∧
        fault = .duplicateInjector name := by
  constructor
  · intro hfault
    cases decides_of_generateAll hfault with
    | @refused front back request _ hsplit hfront hrequest =>
        have hmem : request ∈ requests := hsplit ▸ List.mem_append_cons_self
        exact absurd hserves (not_serves_of_fails hmem hrequest injectors)
    | @repeated others name hothers hname =>
        rw [hothers.unique hserves] at hname
        exact ⟨name, hname, rfl⟩
  · intro h
    obtain ⟨name, hname, rfl⟩ := h
    rw [generateAll_eq_generateAllBy]
    exact (Decides.repeated hserves hname).eq

/-- A request that fails takes the batch with it, if no earlier one does. -/
theorem generateAll_of_fails {request : Request} {fault : GenerationError}
    (hmem : request ∈ requests) (hfault : (generator.generate request).result = .error fault) :
    ∃ front first back cause, requests = front ++ first :: back ∧
      (∀ earlier ∈ front, ∃ injector, (generator.generate earlier).result = .ok injector) ∧
      (generator.generate first).result = .error cause ∧
      (generator.generateAll requests).result = .error cause := by
  have hrefuted := not_serves_of_fails hmem hfault
  generalize hresult : (generator.generateAll requests).result = result
  cases decides_of_generateAll hresult with
  | refused hsplit hfront hfirst => exact ⟨_, _, _, _, hsplit, hfront, hfirst, rfl⟩
  | repeated hserves => exact absurd hserves (hrefuted _)
  | published hserves => exact absurd hserves (hrefuted _)

/-- A single request is never refused for a name that is used twice. -/
theorem generate_ne_duplicateInjector {fault : GenerationError}
    (hfault : (generator.generate request).result = .error fault) (name : String) :
    fault ≠ .duplicateInjector name := by
  cases howner : generator.directory request.component with
  | none =>
      rw [generate_of_unknown howner] at hfault
      cases hfault
      simp
  | some owner =>
      rw [generate_of_owner howner] at hfault
      obtain ⟨cause, -, rfl⟩ := Logged.mapError_eq_error_iff.mp hfault
      simp

/-- A batch comes to exactly one of three ends: the first failure of a request, the
least repeated injector name, or all injectors by name.  It succeeds exactly when every
request does and the targets' simple names are distinct, and no sort by name shows. -/
theorem generateAll_decides (generator : Generator) (requests : List Request) :
    (∀ result, (generator.generateAll requests).result = result ↔
      generator.Decides requests result) ∧
    ((∃ published, (generator.generateAll requests).result = .ok published) ↔
      (∀ request ∈ requests, ∃ injector, (generator.generate request).result = .ok injector) ∧
        (requests.map fun request => request.target.simpleName).Nodup) ∧
    ∀ sort : NameSort, generator.generateAllBy sort requests = generator.generateAll requests := by
  rw [generateAll_eq_generateAllBy]
  refine ⟨?_, generateAllBy_succeeds_iff, ?_⟩
  · intro result
    constructor
    · intro hresult
      rw [← hresult]
      exact decides_generateAllBy
    · intro hdecides
      exact hdecides.eq
  · intro sort
    exact generateAllBy_eq sort .stable

end Generator

end FieldWiring
