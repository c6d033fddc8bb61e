import FieldWiring.Proofs.Batch
import FieldWiring.Proofs.Registration

/-!
# Directories that grow

A generator asks its directory for nothing but the components that requests name, so two
directories that agree on those serve the requests alike.  A registry that grows keeps
every answer that it has given, and therefore changes only what failed for want of a
component that has come in since.
-/

namespace FieldWiring

namespace Generator

variable {generator other : Generator} {request : Request} {requests : List Request}

/-! ## What is read of a directory -/

/-- One entry of the directory is all that a request reads of it. -/
theorem generate_eq_of_directory_eq (hnaming : generator.naming = other.naming)
    (hsame : generator.directory request.component = other.directory request.component) :
    generator.generate request = other.generate request := by
  rw [generate, generate, hsame, hnaming]

/-- A batch depends on no request behind the first that fails. -/
theorem generateAll_eq_of_throughFirst
    (hsame : ∀ request ∈ throughFirst (Logged.failsOn generator.generate) requests,
      generator.generate request = other.generate request) :
    generator.generateAll requests = other.generateAll requests := by
  rw [generateAll, generateAll, Logged.traverse_eq_of_throughFirst hsame]

/-- A request names the component that it looked up in vain, and its own target. -/
theorem generate_eq_unknown_iff {component target : String} :
    (generator.generate request).result = .error (.unknownComponent component target) ↔
      generator.directory request.component = none ∧
        component = request.component ∧ target = request.target.simpleName := by
  cases howner : generator.directory request.component with
  | none =>
      rw [generate_of_unknown howner]
      simp [eq_comm]
  | some owner =>
      rw [generate_of_owner howner, Logged.mapError_eq_error_iff]
      simp

/-- A batch that fails for want of a component has asked the directory for it in vain. -/
theorem directory_eq_none_of_unknown {component target : String}
    (hunknown : (generator.generateAll requests).result =
      .error (.unknownComponent component target)) :
    generator.directory component = none := by
  cases decides_of_generateAll hunknown with
  | refused hsplit hfront hfault =>
      obtain ⟨hnone, rfl, -⟩ := generate_eq_unknown_iff.mp hfault
      exact hnone

theorem generateAll_of_throughFirst {fault : GenerationError}
    (hmem : request ∈ throughFirst (Logged.failsOn generator.generate) requests)
    (hfault : (generator.generate request).result = .error fault) :
    (generator.generateAll requests).result = .error fault := by
  have hfirst := find?_of_mem_throughFirst hmem (Logged.failsOn_eq_true_iff.mpr ⟨fault, hfault⟩)
  rw [generateAll_eq_generateAllBy]
  exact generateAllBy_of_refused (Logged.traverse_eq_error_iff.mpr ⟨request, hfirst, hfault⟩)

/-! ## What a growing registry changes -/

/-- The run ended for want of a component that is among those tried since. -/
def Awaits {α : Type} (attempts : List Component) (run : Logged GenerationError α) : Prop :=
  ∃ component target, run.result = .error (.unknownComponent component target) ∧
    ∃ added ∈ attempts, added.name = component

/-- What a run came to before the attempts it comes to after them, unless it awaited one
of them. -/
structure Outlives {α : Type} (attempts : List Component)
    (before after : Logged GenerationError α) : Prop where
  ok : ∀ value, before.result = .ok value → after = before
  unresolvable : ∀ cause, before.result = .error (.unresolvable cause) → after = before
  changes : after ≠ before ↔ Awaits attempts before

/-- A run outlives attempts if it changes exactly where it awaited one. -/
theorem Outlives.of_changes {α : Type} {attempts : List Component}
    {before after : Logged GenerationError α}
    (hchanges : after ≠ before ↔ Awaits attempts before) : Outlives attempts before after := by
  refine ⟨?_, ?_, hchanges⟩
  · intro value hvalue
    by_contra hne
    obtain ⟨component, target, hunknown, -⟩ := hchanges.mp hne
    rw [hvalue] at hunknown
    cases hunknown
  · intro cause hcause
    by_contra hne
    obtain ⟨component, target, hunknown, -⟩ := hchanges.mp hne
    rw [hcause] at hunknown
    cases hunknown

section Registry

variable {naming : Naming} {registry : Registry} {attempts : List Component}

/-- A request is served in another way exactly if it awaited its component. -/
theorem generate_ne_iff :
    (mk (registry.attemptAll attempts).find? naming).generate request ≠
        (mk registry.find? naming).generate request ↔
      Awaits attempts ((mk registry.find? naming).generate request) := by
  constructor
  · intro hne
    have hmoved : (registry.attemptAll attempts).find? request.component ≠
        registry.find? request.component := by
      intro hsame
      exact hne (generate_eq_of_directory_eq rfl hsame)
    obtain ⟨hnone, hadded⟩ := Registry.exists_added_of_find?_ne hmoved
    exact ⟨_, _, generate_eq_unknown_iff.mpr ⟨hnone, rfl, rfl⟩, hadded⟩
  · intro hawaits hsame
    obtain ⟨component, target, hunknown, added, hadded, rfl⟩ := hawaits
    rw [← hsame] at hunknown
    obtain ⟨hnone, hname, -⟩ := generate_eq_unknown_iff.mp hunknown
    rw [← hname] at hnone
    exact Registry.find?_attemptAll_ne_none hadded hnone

/-- A batch is served in another way exactly if its first failure awaited a component. -/
theorem generateAll_ne_iff :
    (mk (registry.attemptAll attempts).find? naming).generateAll requests ≠
        (mk registry.find? naming).generateAll requests ↔
      Awaits attempts ((mk registry.find? naming).generateAll requests) := by
  constructor
  · intro hne
    by_contra hready
    apply hne
    symm
    apply generateAll_eq_of_throughFirst
    intro request hmem
    by_contra hmoved
    -- A request that is served in another way failed before, so the batch failed with it.
    obtain ⟨component, target, hunknown, hadded⟩ := generate_ne_iff.mp (Ne.symm hmoved)
    exact hready ⟨component, target, generateAll_of_throughFirst hmem hunknown, hadded⟩
  · intro hawaits hsame
    obtain ⟨component, target, hunknown, added, hadded, rfl⟩ := hawaits
    rw [← hsame] at hunknown
    exact Registry.find?_attemptAll_ne_none hadded (directory_eq_none_of_unknown hunknown)

end Registry

/-- A generator knows its directory by the names in its requests alone.  What it writes
goes by the name of the component that was found, and what it cannot find by the name
that was asked for.  Hence nothing that came out over a registry changes when the
registry grows, except a failure to find what has been tried since. -/
theorem reads_directory_by_name (naming : Naming) :
    (∀ (left right : Directory) (requests : List Request),
      (∀ request ∈ requests, left request.component = right request.component) →
      (∀ request ∈ requests,
        (mk left naming).generate request = (mk right naming).generate request) ∧
      (mk left naming).generateAll requests = (mk right naming).generateAll requests) ∧
    (∀ (directory : Directory) (request : Request),
      (∀ owner injector, directory request.component = some owner →
        ((mk directory naming).generate request).result = .ok injector →
        ∀ statement ∈ injector.statements,
          statement.accessor = naming.componentClass owner.name ++ ".getInstance()" ∨
            ∃ getter, statement.accessor =
              naming.componentClass owner.name ++ ".getInstance()." ++ getter ++ "()") ∧
      ∀ component target, ((mk directory naming).generate request).result =
          .error (.unknownComponent component target) ↔
        directory request.component = none ∧
          component = request.component ∧ target = request.target.simpleName) ∧
    ∀ (registry : Registry) (attempts : List Component),
      (∀ request, Outlives attempts ((mk registry.find? naming).generate request)
        ((mk (registry.attemptAll attempts).find? naming).generate request)) ∧
      ∀ requests, Outlives attempts ((mk registry.find? naming).generateAll requests)
        ((mk (registry.attemptAll attempts).find? naming).generateAll requests) := by
  refine ⟨?_, ?_, ?_⟩
  · intro left right requests hsame
    have hgenerate : ∀ request ∈ requests,
        (mk left naming).generate request = (mk right naming).generate request := by
      intro request hmem
      exact generate_eq_of_directory_eq rfl (hsame request hmem)
    refine ⟨hgenerate, generateAll_eq_of_throughFirst ?_⟩
    intro request hmem
    exact hgenerate request (mem_of_mem_throughFirst hmem)
  · intro directory request
    refine ⟨?_, fun component target => generate_eq_unknown_iff⟩
    intro owner injector howner hinjector statement hmem
    obtain ⟨found, hfound, hwires⟩ := generate_eq_ok_iff.mp hinjector
    cases howner.symm.trans hfound
    exact hwires.accessor_eq_or hmem
  · intro registry attempts
    constructor
    · intro request
      exact .of_changes generate_ne_iff
    · intro requests
      exact .of_changes generateAll_ne_iff

def aliasDirectory : Directory := fun name =>
  if name = "main" then some ⟨"App", ["Preference_User"]⟩ else none

def userRequest (component : String) : Request :=
  ⟨component, { simpleName := "User", fields := [⟨"user", "Preference_User", true⟩] }⟩

/-- The component that is found under an alias, or by a directory that knows nothing else,
is called by its own name.  A registry that is offered it a second time keeps what it
has, and a batch that failed for a component that came in goes on from there. -/
theorem reads_directory_by_name_alias :
    (mk aliasDirectory {}).generateAll [userRequest "main"] =
      (mk (fun _ => some ⟨"App", ["Preference_User"]⟩) {}).generateAll [userRequest "main"] ∧
    (∃ injector, ((mk aliasDirectory {}).generate (userRequest "main")).result = .ok injector ∧
      ∀ statement ∈ injector.statements,
        statement.accessor = "PreferenceComponent_App" ++ ".getInstance()" ∨
          ∃ getter, statement.accessor =
            "PreferenceComponent_App" ++ ".getInstance()." ++ getter ++ "()") ∧
    ∃ registry, Registry.ofComponents [⟨"App", ["Preference_User"]⟩] = .ok registry ∧
      (mk (registry.attemptAll [⟨"App", []⟩, ⟨"Settings", []⟩]).find? {}).generate
          (userRequest "App") = (mk registry.find? {}).generate (userRequest "App") ∧
      (mk (registry.attemptAll [⟨"App", []⟩, ⟨"Settings", []⟩]).find? {}).generateAll
          [userRequest "App", userRequest "Settings"] ≠
        (mk registry.find? {}).generateAll [userRequest "App", userRequest "Settings"] := by
  obtain ⟨hagree, hnamed, hgrowth⟩ := reads_directory_by_name {}
  refine ⟨?_, ?_, ?_⟩
  · refine (hagree _ _ _ ?_).2
    intro request hmem
    rw [List.mem_singleton.mp hmem]
    rfl
  · exact ⟨_, rfl, (hnamed aliasDirectory (userRequest "main")).1 ⟨"App", ["Preference_User"]⟩ _
      rfl rfl⟩
  · refine ⟨_, rfl, ?_, ?_⟩
    · exact ((hgrowth _ [⟨"App", []⟩, ⟨"Settings", []⟩]).1 (userRequest "App")).ok _ rfl
    · apply ((hgrowth _ [⟨"App", []⟩, ⟨"Settings", []⟩]).2 _).changes.mpr
      exact ⟨"Settings", "User", rfl, ⟨"Settings", []⟩, by simp, rfl⟩

end Generator

end FieldWiring
