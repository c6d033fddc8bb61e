import Mathlib.Data.List.Perm.Basic
import FieldWiring.Proofs.Batch

/-!
# Batches in another order

What a batch publishes is sorted, so the order of its requests can show only in which of
several failures is met first.  Registered targets are put in order of their simple names
before they are served, and then not even that is left open.  Their injectors are put in
order once more, by names that need not be ordered like the simple names.
-/

namespace FieldWiring

namespace Generator

variable {generator : Generator} {left right requests : List Request}

/-! ## Requests in another order -/

theorem Serves.of_perm {injectors : List Injector} (hserves : generator.Serves left injectors)
    (hperm : left.Perm right) :
    ∃ others, generator.Serves right others ∧ others.Perm injectors :=
  List.perm_comp_forall₂ hperm.symm hserves

/-- What is published does not depend on the order of the requests. -/
theorem generateAll_eq_ok_of_perm (hperm : left.Perm right) {published : List Injector}
    (hpublished : (generator.generateAll left).result = .ok published) :
    (generator.generateAll right).result = .ok published := by
  obtain ⟨injectors, hserves, hsame, hincreasing⟩ := generateAll_eq_ok_iff.mp hpublished
  obtain ⟨others, hothers, hmoved⟩ := hserves.of_perm hperm
  exact generateAll_eq_ok_iff.mpr ⟨others, hothers, hsame.trans hmoved.symm, hincreasing⟩

/-- If each request succeeds alone, the name that is reported does not depend on the order. -/
theorem generateAll_eq_error_of_perm (hperm : left.Perm right) {injectors : List Injector}
    (hserves : generator.Serves left injectors) {fault : GenerationError}
    (hfault : (generator.generateAll left).result = .error fault) :
    (generator.generateAll right).result = .error fault := by
  obtain ⟨others, hothers, hmoved⟩ := hserves.of_perm hperm
  obtain ⟨name, hname, heq⟩ := (generateAll_eq_error_iff_of_serves hserves).mp hfault
  have hagain := hname.of_perm (hmoved.symm.map Injector.name)
  exact (generateAll_eq_error_iff_of_serves hothers).mpr ⟨name, hagain, heq⟩

/-- The batch fails for what one of its requests fails for on its own. -/
def IsRefused (generator : Generator) (requests : List Request) : Prop :=
  ∃ request ∈ requests, ∃ fault, (generator.generate request).result = .error fault ∧
    (generator.generateAll requests).result = .error fault ∧
    ∀ name, fault ≠ .duplicateInjector name

theorem isRefused_of_fails {request : Request} {fault : GenerationError}
    (hmem : request ∈ requests) (hfault : (generator.generate request).result = .error fault) :
    generator.IsRefused requests := by
  obtain ⟨front, first, back, cause, hsplit, -, hfirst, hbatch⟩ := generateAll_of_fails hmem hfault
  have hlisted : first ∈ requests := hsplit ▸ List.mem_append_cons_self
  exact ⟨first, hlisted, cause, hfirst, hbatch, generate_ne_duplicateInjector hfirst⟩

/-- The order of requests shows only when some of them fail on their own: then it decides
which of their failures is the batch's. -/
theorem generateAll_of_perm (generator : Generator) {left right : List Request}
    (hperm : left.Perm right) :
    (∀ published, (generator.generateAll left).result = .ok published ↔
      (generator.generateAll right).result = .ok published) ∧
    ((∀ request ∈ left, ∃ injector, (generator.generate request).result = .ok injector) →
      (generator.generateAll left).result = (generator.generateAll right).result) ∧
    ((∃ request ∈ left, ∃ fault, (generator.generate request).result = .error fault) →
      generator.IsRefused left ∧ generator.IsRefused right) := by
  refine ⟨?_, ?_, ?_⟩
  · intro published
    constructor
    · exact generateAll_eq_ok_of_perm hperm
    · exact generateAll_eq_ok_of_perm hperm.symm
  · intro hsucceed
    obtain ⟨injectors, hinjectors⟩ := Logged.traverse_succeeds_iff.mpr hsucceed
    have hserves : generator.Serves left injectors := Logged.traverse_eq_ok_iff.mp hinjectors
    cases hresult : (generator.generateAll left).result with
    | ok published => exact (generateAll_eq_ok_of_perm hperm hresult).symm
    | error fault => exact (generateAll_eq_error_of_perm hperm hserves hresult).symm
  · intro h
    obtain ⟨request, hmem, fault, hfault⟩ := h
    constructor
    · exact isRefused_of_fails hmem hfault
    · exact isRefused_of_fails (hperm.mem_iff.mp hmem) hfault

/-- A generator that knows one component, under a name other than its own. -/
def appGenerator : Generator where
  directory name := if name = "main" then some ⟨"App", ["Preference_User"]⟩ else none

def fieldRequest (component simpleName typeName : String) : Request :=
  ⟨component, { simpleName, fields := [⟨"user", typeName, true⟩] }⟩

/-- Two requests that share a name, apart from each other in one order and side by side
in the other; and two requests of which either may fail first. -/
theorem generateAll_of_perm_user :
    (appGenerator.generateAll [fieldRequest "main" "User" "Preference_User",
        fieldRequest "main" "Main" "Preference_User",
        fieldRequest "main" "User" "PreferenceComponent_App"]).result =
      (appGenerator.generateAll [fieldRequest "main" "User" "PreferenceComponent_App",
        fieldRequest "main" "User" "Preference_User",
        fieldRequest "main" "Main" "Preference_User"]).result ∧
    appGenerator.IsRefused
      [fieldRequest "App" "User" "Preference_User", fieldRequest "main" "Main" "Theme"] ∧
    appGenerator.IsRefused
      [fieldRequest "main" "Main" "Theme", fieldRequest "App" "User" "Preference_User"] := by
  constructor
  · apply (generateAll_of_perm appGenerator (by decide)).2.1
    intro request hmem
    simp only [List.mem_cons, List.not_mem_nil, or_false] at hmem
    rcases hmem with rfl | rfl | rfl <;> exact ⟨_, rfl⟩
  · apply (generateAll_of_perm appGenerator (by decide)).2.2
    exact ⟨fieldRequest "main" "Main" "Theme", by simp, _, rfl⟩

/-! ## Registered targets in another order -/

theorem bySimpleName_perm (requests : List Request) : (bySimpleName requests).Perm requests :=
  List.mergeSort_perm requests _

theorem bySimpleName_sorted (requests : List Request) :
    ((bySimpleName requests).map fun request => request.target.simpleName).Pairwise (· ≤ ·) :=
  pairwise_map_mergeSort (fun request => request.target.simpleName) requests

/-- Targets of distinct simple names are served in only one order. -/
theorem bySimpleName_eq_of_perm (hperm : left.Perm right)
    (hnodup : (left.map fun request => request.target.simpleName).Nodup) :
    bySimpleName left = bySimpleName right := by
  have hsame : (bySimpleName left).Perm (bySimpleName right) :=
    calc
      List.Perm (bySimpleName left) left := bySimpleName_perm left
      List.Perm _ right := hperm
      List.Perm _ (bySimpleName right) := (bySimpleName_perm right).symm
  apply eq_of_perm_of_pairwise_map hsame _ (bySimpleName_sorted left) (bySimpleName_sorted right)
  exact ((bySimpleName_perm left).map _).nodup_iff.mpr hnodup

theorem result_generateRegistered :
    (generator.generateRegistered requests).result =
      (generator.generateAll (bySimpleName requests)).result := rfl

/-- The request fails on its own, and none of a lesser simple name does. -/
structure IsLeastFailing (generator : Generator) (requests : List Request) (request : Request)
    (fault : GenerationError) : Prop where
  mem : request ∈ requests
  fails : (generator.generate request).result = .error fault
  least : ∀ other ∈ requests, ∀ cause, (generator.generate other).result = .error cause →
    request.target.simpleName ≤ other.target.simpleName

theorem IsLeastFailing.unique {first second : Request} {fault cause : GenerationError}
    (hnodup : (requests.map fun request => request.target.simpleName).Nodup)
    (hfirst : generator.IsLeastFailing requests first fault)
    (hsecond : generator.IsLeastFailing requests second cause) : fault = cause := by
  have hname : first.target.simpleName = second.target.simpleName := by
    apply String.le_antisymm
    · exact hfirst.least second hsecond.mem cause hsecond.fails
    · exact hsecond.least first hfirst.mem fault hfirst.fails
  have hsame : first = second := List.inj_on_of_nodup_map hnodup hfirst.mem hsecond.mem hname
  have hfails := hsecond.fails
  rw [← hsame, hfirst.fails] at hfails
  exact Except.error.inj hfails

/-- In the order of simple names the first request that fails is the least one. -/
theorem exists_isLeastFailing {request : Request} {fault : GenerationError}
    (hmem : request ∈ requests) (hfault : (generator.generate request).result = .error fault) :
    ∃ first cause, generator.IsLeastFailing requests first cause ∧
      (generator.generateRegistered requests).result = .error cause := by
  have hperm := bySimpleName_perm requests
  obtain ⟨front, first, back, cause, hsplit, hfront, hfirst, hbatch⟩ :=
    generateAll_of_fails (hperm.mem_iff.mpr hmem) hfault
  refine ⟨first, cause, ⟨?_, hfirst, ?_⟩, hbatch⟩
  · rw [← hperm.mem_iff, hsplit]
    exact List.mem_append_cons_self
  · intro other hother reason hreason
    rw [← hperm.mem_iff, hsplit, List.mem_append, List.mem_cons] at hother
    rcases hother with hearlier | rfl | hlater
    · obtain ⟨injector, hinjector⟩ := hfront other hearlier
      rw [hreason] at hinjector
      cases hinjector
    · exact String.le_refl _
    · have hsorted := bySimpleName_sorted requests
      rw [hsplit, List.map_append, List.map_cons] at hsorted
      obtain ⟨-, htail, -⟩ := List.pairwise_append.mp hsorted
      exact (List.pairwise_cons.mp htail).1 _ (List.mem_map_of_mem hlater)

/-- Registered targets are published exactly if each succeeds alone and the simple names are
distinct. -/
theorem generateRegistered_succeeds_iff :
    (∃ published, (generator.generateRegistered requests).result = .ok published) ↔
      (∀ request ∈ requests, ∃ injector, (generator.generate request).result = .ok injector) ∧
        (requests.map fun request => request.target.simpleName).Nodup := by
  have hperm := bySimpleName_perm requests
  rw [result_generateRegistered, generateAll_eq_generateAllBy, generateAllBy_succeeds_iff,
    (hperm.map _).nodup_iff]
  simp only [hperm.mem_iff]

/-- Registered targets are refused for the failing one with the least simple name. -/
theorem generateRegistered_eq_error_iff
    (hnodup : (requests.map fun request => request.target.simpleName).Nodup)
    {fault : GenerationError} :
    (generator.generateRegistered requests).result = .error fault ↔
      ∃ request, generator.IsLeastFailing requests request fault := by
  constructor
  · intro hfault
    by_contra hnone
    have hsucceed : ∀ request ∈ requests, ∃ injector,
        (generator.generate request).result = .ok injector := by
      intro request hmem
      cases hresult : (generator.generate request).result with
      | ok injector => exact ⟨injector, rfl⟩
      | error cause =>
          obtain ⟨first, reason, hfirst, hbatch⟩ := exists_isLeastFailing hmem hresult
          rw [hfault] at hbatch
          cases hbatch
          exact absurd ⟨first, hfirst⟩ hnone
    obtain ⟨published, hpublished⟩ := generateRegistered_succeeds_iff.mpr ⟨hsucceed, hnodup⟩
    rw [hfault] at hpublished
    cases hpublished
  · intro h
    obtain ⟨request, hrequest⟩ := h
    obtain ⟨first, cause, hfirst, hresult⟩ := exists_isLeastFailing hrequest.mem hrequest.fails
    rw [hresult, hrequest.unique hnodup hfirst]

/-- The order in which distinct simple names were registered leaves no trace. -/
theorem generateRegistered_eq_of_perm (hperm : left.Perm right)
    (hnodup : (left.map fun request => request.target.simpleName).Nodup) :
    generator.generateRegistered left = generator.generateRegistered right := by
  rw [generateRegistered, generateRegistered, bySimpleName_eq_of_perm hperm hnodup,
    hperm.length_eq]

/-- The order in which targets are served need not be that of their injectors: a suffix
can put a name behind those that it begins. -/
theorem exists_generateRegistered_reordered :
    ∃ (generator : Generator) (registered : List Request) (published : List Injector),
      (registered.map fun request => request.target.simpleName).Pairwise (· < ·) ∧
      (generator.generateRegistered registered).result = .ok published ∧
      published.map Injector.name ≠ registered.map fun request =>
        generator.naming.injectorName request.target.simpleName := by
  -- Behind the shared beginning an underscore meets a letter, which is the lesser one.
  have hserves : appGenerator.Serves
      [fieldRequest "main" "Main" "Preference_User",
        fieldRequest "main" "MainActivity" "Preference_User"] _ :=
    .cons rfl (.cons rfl .nil)
  obtain ⟨others, hothers, hmoved⟩ := hserves.of_perm (bySimpleName_perm _).symm
  have hpublished := (List.Perm.swap _ _ []).trans hmoved.symm
  refine ⟨appGenerator, _, _, ?_, generateAll_eq_ok_iff.mpr ⟨others, hothers, hpublished, ?_⟩, ?_⟩
  all_goals decide

/-- Registered targets of distinct simple names are served alike in whatever order they
are enumerated, and a failure is that of the least target that fails; what is published
is in the order of injector names, which can be another one.  Targets that share a simple
name are never published together. -/
theorem generateRegistered_of_perm (generator : Generator) {left right : List Request}
    (hperm : left.Perm right) :
    ((left.map fun request => request.target.simpleName).Nodup →
      generator.generateRegistered left = generator.generateRegistered right ∧
      ∀ fault, (generator.generateRegistered left).result = .error fault ↔
        ∃ request, generator.IsLeastFailing left request fault) ∧
    (¬ (left.map fun request => request.target.simpleName).Nodup → ∀ published,
      (generator.generateRegistered left).result ≠ .ok published ∧
        (generator.generateRegistered right).result ≠ .ok published) ∧
    (∀ published, (generator.generateRegistered left).result = .ok published →
      (published.map Injector.name).Pairwise (· < ·)) ∧
    ∃ (other : Generator) (registered : List Request) (published : List Injector),
      (registered.map fun request => request.target.simpleName).Pairwise (· < ·) ∧
      (other.generateRegistered registered).result = .ok published ∧
      published.map Injector.name ≠ registered.map fun request =>
        other.naming.injectorName request.target.simpleName := by
  refine ⟨?_, ?_, ?_, exists_generateRegistered_reordered⟩
  · intro hnodup
    refine ⟨generateRegistered_eq_of_perm hperm hnodup, ?_⟩
    intro fault
    exact generateRegistered_eq_error_iff hnodup
  · intro hrepeated published
    constructor
    · intro hpublished
      exact hrepeated (generateRegistered_succeeds_iff.mp ⟨published, hpublished⟩).2
    · intro hpublished
      apply hrepeated
      rw [(hperm.map _).nodup_iff]
      exact (generateRegistered_succeeds_iff.mp ⟨published, hpublished⟩).2
  · intro published hpublished
    exact increasing_of_published hpublished

/-- Of two targets that fail, the lesser one is reported even when it is enumerated last,
and two targets of one simple name are not published however far apart they stand. -/
theorem generateRegistered_of_perm_beta :
    (appGenerator.generateRegistered [fieldRequest "main" "Zeta" "Theme",
        fieldRequest "main" "Alpha" "Preference_User",
        fieldRequest "App" "Beta" "Preference_User"] =
      appGenerator.generateRegistered [fieldRequest "App" "Beta" "Preference_User",
        fieldRequest "main" "Alpha" "Preference_User", fieldRequest "main" "Zeta" "Theme"] ∧
      (appGenerator.generateRegistered [fieldRequest "main" "Zeta" "Theme",
        fieldRequest "main" "Alpha" "Preference_User",
        fieldRequest "App" "Beta" "Preference_User"]).result =
        .error (.unknownComponent "App" "Beta")) ∧
    ∀ published, (appGenerator.generateRegistered [fieldRequest "main" "User" "Preference_User",
        fieldRequest "main" "Alpha" "Preference_User",
        fieldRequest "main" "User" "PreferenceComponent_App"]).result ≠ .ok published := by
  constructor
  · have hreversed := (generateRegistered_of_perm appGenerator
      (List.reverse_perm [fieldRequest "App" "Beta" "Preference_User",
        fieldRequest "main" "Alpha" "Preference_User", fieldRequest "main" "Zeta" "Theme"])).1
        (by decide)
    refine ⟨hreversed.1, (hreversed.2 _).mpr ⟨fieldRequest "App" "Beta" "Preference_User", ?_⟩⟩
    refine ⟨by simp, rfl, ?_⟩
    intro other hmem cause hcause
    simp only [List.reverse_cons, List.reverse_nil, List.nil_append, List.cons_append,
      List.mem_cons, List.not_mem_nil, or_false] at hmem
    rcases hmem with rfl | rfl | rfl
    · decide
    · cases hcause
    · decide
  · intro published
    exact ((generateRegistered_of_perm appGenerator (List.Perm.refl _)).2.1
      (by decide) published).1

end Generator

end FieldWiring
