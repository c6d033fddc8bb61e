import FieldWiring.Proofs.Batch

/-!
# The grammar of the log

The log of a run says how it ended.  Every injector that is begun is closed before the
next one is begun, by the number of its assignments or by a warning, and a warning or
the summary of a batch is the last line.  A reader of the log is a small automaton; the
phase in which it ends is determined by the result of the run.
-/

namespace FieldWiring

/-! ## Lines of the log -/

namespace Line

def generating (component target : String) : Line where
  level := .debug
  message := "Generating injector."
  details := [("component", .text component), ("injection_target", .text target)]

/-- A marked field was looked up. -/
def resolved (field typeName resolution : String) : Line where
  level := .debug
  message := "Resolved injected field."
  details := [("field", .text field), ("type_name", .text typeName),
    ("resolution", .text resolution)]

def aborting (target field error : String) : Line where
  level := .warn
  message := "Aborting injector generation."
  details := [("injection_target", .text target), ("field", .text field), ("error", .text error)]

def generated (injector : String) (statements : Nat) : Line where
  level := .debug
  message := "Generated injector."
  details := [("injector", .text injector), ("statements", .count statements)]

/-- A batch of registered targets is begun. -/
def found (count : Nat) : Line where
  level := .info
  message := "Found " ++ toString count ++ " registered injection targets."
  details := []

/-- A batch is complete. -/
def published (count : Nat) : Line where
  level := .info
  message := "Generated " ++ toString count ++ " injectors."
  details := []

end Line

/-! ## One injector -/

namespace Injector

open Resolution

variable {naming : Naming} {owner : Component} {target : Target}

/-- What is reported of a field whose type is looked up. -/
def lookup (naming : Naming) (owner : Component) (field : Field) : Event :=
  .resolved field.name field.typeName (ofType naming owner field.typeName)

def refusal (target : Target) (field : Field) : Event :=
  .aborting target.simpleName field.name ⟨field.typeName⟩

theorem assign_events_of_resolvable {field : Field}
    (hresolvable : Resolvable naming owner field.typeName) :
    (assign naming owner target field).events = [lookup naming owner field] := by
  cases haccessor : accessor naming owner (ofType naming owner field.typeName) with
  | ok expression => simp [assign, haccessor, lookup]
  | error cause => exact absurd hresolvable (accessor_ofType_eq_error_iff.mp haccessor).1

/-- A field that cannot be filled is reported once more, as the one that ends the emission. -/
theorem assign_events_of_not_resolvable {field : Field}
    (hunresolvable : ¬ Resolvable naming owner field.typeName) :
    (assign naming owner target field).events =
      [lookup naming owner field, refusal target field] := by
  have haccessor := accessor_ofType_eq_error_iff.mpr ⟨hunresolvable, rfl⟩
  simp [assign, haccessor, lookup, refusal, Logged.fail]

/-- Fields that are all resolvable are looked up one by one. -/
theorem assign_flatMap_events {fields : List Field}
    (hresolvable : ∀ field ∈ fields, Resolvable naming owner field.typeName) :
    (fields.flatMap fun field => (assign naming owner target field).events) =
      fields.map (lookup naming owner) := by
  induction fields with
  | nil => rfl
  | cons head tail ih =>
      obtain ⟨hhead, htail⟩ := List.forall_mem_cons.mp hresolvable
      rw [List.flatMap_cons, assign_events_of_resolvable hhead, ih htail, List.map_cons,
        List.singleton_append]

/-- An emission that succeeds reports every marked field and the number of assignments. -/
theorem emit_events_of_wires {injector : Injector} (hwires : Wires naming owner target injector) :
    (emit naming owner target).events =
      target.injectedFields.map (lookup naming owner) ++
        [.generated injector.name target.injectedFields.length] := by
  have hresolvable := emit_succeeds_iff.mp ⟨injector, emit_eq_ok_iff.mpr hwires⟩
  have hfree : ∀ field ∈ target.injectedFields,
      Logged.failsOn (assign naming owner target) field = false := by
    intro field hmem
    exact failsOn_assign_of_resolvable (hresolvable field hmem)
  have htraverse : (Logged.traverse (assign naming owner target) target.injectedFields).result =
      .ok injector.statements := by
    apply Logged.traverse_eq_ok_iff.mpr
    apply hwires.statements.imp
    intro field statement hfills
    exact assign_eq_ok_iff.mpr hfills
  calc
    (emit naming owner target).events =
        (Logged.traverse (assign naming owner target) target.injectedFields).events ++
          [.generated injector.name target.injectedFields.length] := by
      rw [emit, Logged.bind_events_of_ok htraverse, hwires.statements.length_eq, hwires.name]
      rfl
    _ = (target.injectedFields.flatMap fun field =>
          (assign naming owner target field).events) ++
          [.generated injector.name target.injectedFields.length] := by
      rw [Logged.traverse_events, throughFirst_eq_self hfree]
    _ = target.injectedFields.map (lookup naming owner) ++
          [.generated injector.name target.injectedFields.length] := by
      rw [assign_flatMap_events hresolvable]

/-- An emission that fails reports the marked fields up to the first that cannot be filled. -/
theorem emit_events_of_split {front back : List Field} {field : Field}
    (hsplit : target.injectedFields = front ++ field :: back)
    (hfront : ∀ earlier ∈ front, Resolvable naming owner earlier.typeName)
    (hfield : ¬ Resolvable naming owner field.typeName) :
    (emit naming owner target).events =
      (front ++ [field]).map (lookup naming owner) ++ [refusal target field] := by
  have hfree : ∀ earlier ∈ front,
      Logged.failsOn (assign naming owner target) earlier = false := by
    intro earlier hmem
    exact failsOn_assign_of_resolvable (hfront earlier hmem)
  have htraverse : (Logged.traverse (assign naming owner target) target.injectedFields).result =
      .error ⟨field.typeName⟩ := by
    apply Logged.traverse_eq_error_iff.mpr
    refine ⟨field, ?_, assign_eq_error_iff.mpr ⟨hfield, rfl⟩⟩
    rw [find?_failsOn_assign]
    exact firstUnresolvable?_eq_some_iff.mpr ⟨front, back, hsplit, hfront, hfield⟩
  calc
    (emit naming owner target).events =
        (Logged.traverse (assign naming owner target) target.injectedFields).events := by
      rw [emit, Logged.bind_events_of_error htraverse]
    _ = (front ++ [field]).flatMap fun field => (assign naming owner target field).events := by
      rw [Logged.traverse_events, hsplit,
        throughFirst_append_cons hfree (failsOn_assign_of_not_resolvable hfield)]
    _ = front.map (lookup naming owner) ++ [lookup naming owner field, refusal target field] := by
      rw [List.flatMap_append, assign_flatMap_events hfront, List.flatMap_singleton,
        assign_events_of_not_resolvable hfield]
    _ = (front ++ [field]).map (lookup naming owner) ++ [refusal target field] := by
      simp

/-- The line says what the field is filled with. -/
inductive LooksUp (naming : Naming) (owner : Component) (field : Field) : Line → Prop where
  | value (hexposed : field.typeName ∈ owner.exposed)
      (hgetter : naming.getter field.typeName ≠ "") :
      LooksUp naming owner field (.resolved field.name field.typeName
        ("ComponentValue \x7b getter: " ++ Text.inQuotes (naming.getter field.typeName) ++
          " \x7d"))
  | component (hhidden : field.typeName ∉ owner.exposed)
      (hclass : field.typeName = naming.componentClass owner.name) :
      LooksUp naming owner field (.resolved field.name field.typeName "ComponentItself")
  | unresolvable (hunresolvable : ¬ Resolvable naming owner field.typeName) :
      LooksUp naming owner field (.resolved field.name field.typeName
        ("Unresolvable(" ++ Text.inQuotes field.typeName ++ ")"))

/-- A field is looked up in exactly one way. -/
theorem looksUp_iff {field : Field} {line : Line} :
    LooksUp naming owner field line ↔ line = (lookup naming owner field).line := by
  constructor
  · intro hlooks
    cases hlooks with
    | value hexposed hgetter =>
        rw [lookup, ofType_of_getter hexposed hgetter]
        rfl
    | component hhidden hclass =>
        rw [lookup, ofType_of_class hhidden hclass]
        rfl
    | unresolvable hunresolvable =>
        rw [lookup, ofType_of_not_resolvable hunresolvable]
        rfl
  · intro hline
    rw [hline]
    by_cases hresolvable : Resolvable naming owner field.typeName
    · cases hresolvable with
      | inl hvalue =>
          rw [lookup, ofType_of_getter hvalue.1 hvalue.2]
          exact .value hvalue.1 hvalue.2
      | inr hcomponent =>
          rw [lookup, ofType_of_class hcomponent.1 hcomponent.2]
          exact .component hcomponent.1 hcomponent.2
    · rw [lookup, ofType_of_not_resolvable hresolvable]
      exact .unresolvable hresolvable

theorem forall₂_looksUp_iff {fields : List Field} {lines : List Line} :
    List.Forall₂ (LooksUp naming owner) fields lines ↔
      lines = (fields.map (lookup naming owner)).map Event.line := by
  induction fields generalizing lines with
  | nil => simp
  | cons head tail ih => simp [List.forall₂_cons_left_iff, looksUp_iff, ih]

end Injector

/-! ## One request -/

namespace Generator

variable {generator : Generator} {request : Request} {requests : List Request}

/-- The log of one request beside its result. -/
inductive RequestLog (generator : Generator) (request : Request) :
    List Line → Except GenerationError Injector → Prop where
  /-- Nothing is begun without an owner. -/
  | unknown (hunknown : generator.directory request.component = none) :
      RequestLog generator request []
        (.error (.unknownComponent request.component request.target.simpleName))
  /-- Every marked field is looked up, and then they are counted. -/
  | generated {owner : Component} {injector : Injector} {lookups : List Line}
      (howner : generator.directory request.component = some owner)
      (hwires : Injector.Wires generator.naming owner request.target injector)
      (hlookups : List.Forall₂ (Injector.LooksUp generator.naming owner)
        request.target.injectedFields lookups) :
      RequestLog generator request
        (.generating request.component request.target.simpleName :: (lookups ++
          [.generated injector.name request.target.injectedFields.length]))
        (.ok injector)
  /-- The marked fields are looked up until one of them is not resolvable. -/
  | aborted {owner : Component} {front back : List Field} {field : Field} {lookups : List Line}
      (howner : generator.directory request.component = some owner)
      (hsplit : request.target.injectedFields = front ++ field :: back)
      (hfront : ∀ earlier ∈ front,
        Resolution.Resolvable generator.naming owner earlier.typeName)
      (hfield : ¬ Resolution.Resolvable generator.naming owner field.typeName)
      (hlookups : List.Forall₂ (Injector.LooksUp generator.naming owner)
        (front ++ [field]) lookups) :
      RequestLog generator request
        (.generating request.component request.target.simpleName :: (lookups ++
          [.aborting request.target.simpleName field.name
            ("'" ++ field.typeName ++ "' type can not be injected")]))
        (.error (.unresolvable ⟨field.typeName⟩))

/-- The lines of a request whose owner is known: one more than those of its emission. -/
theorem lines_generate_of_owner {owner : Component}
    (howner : generator.directory request.component = some owner) :
    (generator.generate request).lines =
      .generating request.component request.target.simpleName ::
        (Injector.emit generator.naming owner request.target).events.map Event.line := by
  rw [generate_of_owner howner]
  rfl

/-- The log of a request tells how the request ended. -/
theorem requestLog_generate :
    generator.RequestLog request (generator.generate request).lines
      (generator.generate request).result := by
  cases howner : generator.directory request.component with
  | none =>
      rw [generate_of_unknown howner]
      exact .unknown howner
  | some owner =>
      rw [lines_generate_of_owner howner, generate_of_owner howner]
      cases hresult : (Injector.emit generator.naming owner request.target).result with
      | ok injector =>
          have hwires := Injector.emit_eq_ok_iff.mp hresult
          rw [Injector.emit_events_of_wires hwires, Logged.mapError_eq_ok_iff.mpr hresult,
            List.map_append]
          exact .generated howner hwires (Injector.forall₂_looksUp_iff.mpr rfl)
      | error fault =>
          obtain ⟨field, hfirst, hfault⟩ := Injector.emit_eq_error_iff.mp hresult
          subst hfault
          obtain ⟨front, back, hsplit, hfront, hfield⟩ :=
            Injector.firstUnresolvable?_eq_some_iff.mp hfirst
          rw [Injector.emit_events_of_split hsplit hfront hfield,
            Logged.mapError_eq_error_iff.mpr ⟨_, hresult, rfl⟩, List.map_append]
          exact .aborted howner hsplit hfront hfield (Injector.forall₂_looksUp_iff.mpr rfl)

theorem RequestLog.eq {lines : List Line} {result : Except GenerationError Injector}
    (hlog : generator.RequestLog request lines result) :
    (generator.generate request).lines = lines ∧
      (generator.generate request).result = result := by
  cases hlog with
  | unknown hunknown =>
      rw [generate_of_unknown hunknown]
      exact ⟨rfl, rfl⟩
  | generated howner hwires hlookups =>
      rw [lines_generate_of_owner howner, Injector.emit_events_of_wires hwires,
        generate_of_owner howner,
        Logged.mapError_eq_ok_iff.mpr (Injector.emit_eq_ok_iff.mpr hwires),
        Injector.forall₂_looksUp_iff.mp hlookups, List.map_append]
      exact ⟨rfl, rfl⟩
  | aborted howner hsplit hfront hfield hlookups =>
      have hfirst := Injector.firstUnresolvable?_eq_some_iff.mpr
        ⟨_, _, hsplit, hfront, hfield⟩
      have hresult := Injector.emit_eq_error_iff.mpr ⟨_, hfirst, rfl⟩
      rw [lines_generate_of_owner howner, Injector.emit_events_of_split hsplit hfront hfield,
        generate_of_owner howner, Logged.mapError_eq_error_iff.mpr ⟨_, hresult, rfl⟩,
        Injector.forall₂_looksUp_iff.mp hlookups, List.map_append]
      exact ⟨rfl, rfl⟩

end Generator

/-! ## A reader of the log -/

/-- Where a reader of the log stands. -/
inductive Phase where
  /-- No injector is begun that is not closed. -/
  | between
  /-- An injector is begun, and so many of its fields are looked up. -/
  | inside (lookups : Nat)
  /-- A warning was read. -/
  | aborted
  /-- The summary of a batch was read. -/
  | published
deriving DecidableEq, Repr

namespace Phase

/-- What one line leads to.  An injector is closed by the number of its assignments only if
that is the number of its lookups, and nothing follows a warning or a summary. -/
inductive Step : Phase → Line → Phase → Prop where
  | begins (component target : String) : Step between (.generating component target) (inside 0)
  | looksUp (lookups : Nat) (field typeName resolution : String) :
      Step (inside lookups) (.resolved field typeName resolution) (inside (lookups + 1))
  | closes (lookups : Nat) (injector : String) :
      Step (inside lookups) (.generated injector lookups) between
  | aborts (lookups : Nat) (target field error : String) :
      Step (inside lookups) (.aborting target field error) aborted
  | publishes (count : Nat) : Step between (.published count) published

/-- The lines lead from one phase to another. -/
inductive Reads : Phase → List Line → Phase → Prop where
  | nil (phase : Phase) : Reads phase [] phase
  | cons {phase middle reached : Phase} {line : Line} {lines : List Line}
      (hstep : Step phase line middle) (hrest : Reads middle lines reached) :
      Reads phase (line :: lines) reached

/-- A line leads to one phase at most: lines of different forms have different messages. -/
theorem Step.unique {phase reached other : Phase} {line line' : Line}
    (hstep : Step phase line reached) (hother : Step phase line' other) (hline : line = line') :
    reached = other := by
  have hlevel := congrArg Line.level hline
  have hmessage := congrArg Line.message hline
  cases hstep with
  | begins =>
      cases hother with
      | begins => rfl
      | publishes => cases hlevel
  | looksUp =>
      cases hother with
      | looksUp => rfl
      | closes => simp [Line.resolved, Line.generated] at hmessage
      | aborts => cases hlevel
  | closes =>
      cases hother with
      | looksUp => simp [Line.resolved, Line.generated] at hmessage
      | closes => rfl
      | aborts => cases hlevel
  | aborts =>
      cases hother with
      | aborts => rfl
      | looksUp | closes => cases hlevel
  | publishes =>
      cases hother with
      | begins => cases hlevel
      | publishes => rfl

/-- The lines lead to one phase only. -/
theorem Reads.unique {phase reached other : Phase} {lines : List Line}
    (hreads : Reads phase lines reached) (hother : Reads phase lines other) : reached = other := by
  induction hreads with
  | nil =>
      cases hother
      rfl
  | cons hstep _ ih =>
      cases hother with
      | cons hstep' hrest =>
          rw [← hstep.unique hstep' rfl] at hrest
          exact ih hrest

/-- A reader goes on where the first lines have led. -/
theorem Reads.append {phase middle reached : Phase} {front back : List Line}
    (hfront : Reads phase front middle) (hback : Reads middle back reached) :
    Reads phase (front ++ back) reached := by
  induction hfront with
  | nil => exact hback
  | cons hstep _ ih => exact .cons hstep (ih hback)

theorem reads_singleton {phase reached : Phase} {line : Line} (hstep : Step phase line reached) :
    Reads phase [line] reached := .cons hstep (.nil reached)

theorem reads_lookups {naming : Naming} {owner : Component} {fields : List Field}
    {lines : List Line} (hlookups : List.Forall₂ (Injector.LooksUp naming owner) fields lines)
    (lookups : Nat) : Reads (inside lookups) lines (inside (lookups + fields.length)) := by
  induction hlookups generalizing lookups with
  | nil => exact .nil _
  | @cons field line fields lines hhead _ ih =>
      have hstep : Step (inside lookups) line (inside (lookups + 1)) := by
        cases hhead <;> exact .looksUp lookups field.name field.typeName _
      have hrest := ih (lookups + 1)
      rw [Nat.add_assoc, Nat.add_comm 1] at hrest
      exact .cons hstep hrest

/-- The level of the line that leads to a phase. -/
def mark : Phase → Level
  | aborted => .warn
  | published => .info
  | between | inside _ => .debug

/-- The level of a line is that of the phase it leads to, and nothing follows a line above
`debug`. -/
theorem Step.level {phase reached : Phase} {line : Line} (hstep : Step phase line reached) :
    line.level = reached.mark ∧ phase.mark = .debug := by
  cases hstep <;> exact ⟨rfl, rfl⟩

/-- A log that can be read holds a warning or information exactly if it ends with it. -/
theorem Reads.mark {phase reached : Phase} {lines : List Line}
    (hreads : Reads phase lines reached) {level : Level} (hlevel : level ≠ .debug) :
    reached.mark = level ↔ phase.mark = level ∨ ∃ line ∈ lines, line.level = level := by
  induction hreads with
  | nil => simp
  | cons hstep _ ih =>
      rw [ih, ← hstep.level.1, hstep.level.2, List.exists_mem_cons_iff]
      -- The phase before a line has no mark, so only the rest of the log can say more.
      constructor
      · intro hlater
        right
        exact hlater
      · intro hlater
        exact hlater.resolve_left hlevel.symm

def ofFault : GenerationError → Phase
  | .unresolvable _ => aborted
  | .unknownComponent .. | .duplicateInjector _ => between

/-- The phase in which a result leaves the log, `whenOk` being that of success. -/
def ofResult {α : Type} (whenOk : Phase) : Except GenerationError α → Phase
  | .ok _ => whenOk
  | .error fault => ofFault fault

@[simp]
theorem ofResult_map {α β : Type} (whenOk : Phase) (restate : α → β)
    (result : Except GenerationError α) :
    ofResult whenOk (result.map restate) = ofResult whenOk result := by
  cases result <;> rfl

theorem reads_requestLog {generator : Generator} {request : Request} {lines : List Line}
    {result : Except GenerationError Injector}
    (hlog : generator.RequestLog request lines result) :
    Reads between lines (ofResult between result) := by
  cases hlog with
  | unknown hunknown => exact .nil between
  | generated howner hwires hlookups =>
      have hcounted := reads_lookups hlookups 0
      rw [Nat.zero_add] at hcounted
      exact .cons (.begins _ _) (hcounted.append (reads_singleton (.closes _ _)))
  | aborted howner hsplit hfront hfield hlookups =>
      have hcounted := reads_lookups hlookups 0
      exact .cons (.begins _ _) (hcounted.append (reads_singleton (.aborts _ _ _ _)))

/-- A reader follows the log of a request to the phase of its result. -/
theorem reads_generate (generator : Generator) (request : Request) :
    Reads between (generator.generate request).lines
      (ofResult between (generator.generate request).result) :=
  reads_requestLog Generator.requestLog_generate

theorem reads_traverse (generator : Generator) (requests : List Request) :
    Reads between (Logged.traverse generator.generate requests).lines
      (ofResult between (Logged.traverse generator.generate requests).result) := by
  induction requests with
  | nil => exact .nil between
  | cons head tail ih =>
      have hreads := reads_generate generator head
      cases hhead : (generator.generate head).result with
      | error fault =>
          rw [hhead] at hreads
          rw [Logged.traverse_cons_error (Logged.eq_of_result_eq hhead)]
          exact hreads
      | ok injector =>
          rw [hhead] at hreads
          rw [Logged.traverse_cons_ok (Logged.eq_of_result_eq hhead), Logged.lines,
            List.map_append, ofResult_map]
          exact hreads.append ih

/-- A warning means that a field cannot be filled. -/
theorem mark_ofResult_eq_warn_iff {α : Type} {result : Except GenerationError α} :
    (ofResult published result).mark = .warn ↔
      ∃ cause, result = .error (.unresolvable cause) := by
  cases result with
  | ok value => simp [ofResult, mark]
  | error fault => cases fault <;> simp [ofResult, ofFault, mark]

theorem mark_ofResult_eq_info_iff {α : Type} {result : Except GenerationError α} :
    (ofResult published result).mark = .info ↔ ∃ value, result = .ok value := by
  cases result with
  | ok value => simp [ofResult, mark]
  | error fault => cases fault <;> simp [ofResult, ofFault, mark]

theorem reads_publish (injectors : List Injector) :
    Reads between (publish injectors).lines (ofResult published (publish injectors).result) := by
  rw [publish]
  cases adjacentDuplicate? (injectors.map Injector.name) with
  | some name => exact .nil between
  | none => exact reads_singleton (.publishes injectors.length)

/-- A reader follows the log of a batch to the phase of its result. -/
theorem reads_generateAll (generator : Generator) (requests : List Request) :
    Reads between (generator.generateAll requests).lines
      (ofResult published (generator.generateAll requests).result) := by
  have hreads := reads_traverse generator requests
  rw [Generator.generateAll]
  cases htraverse : (Logged.traverse generator.generate requests).result with
  | error fault =>
      rw [htraverse] at hreads
      rw [Logged.eq_of_result_eq htraverse, Logged.bind_error]
      exact hreads
  | ok injectors =>
      rw [htraverse] at hreads
      rw [Logged.eq_of_result_eq htraverse, Logged.bind_ok, Logged.lines, List.map_append]
      exact hreads.append (reads_publish _)

end Phase

/-! ## Batches -/

namespace Generator

variable {generator : Generator} {requests : List Request}

/-- What ends the log of a batch, if the batch succeeds: the number of its injectors. -/
def summary {α : Type} (count : Nat) : Except GenerationError α → List Line
  | .ok _ => [.published count]
  | .error _ => []

/-- Publishing is reported by the number of injectors, or not at all. -/
theorem publish_lines (injectors : List Injector) :
    (publish injectors).lines = summary injectors.length (publish injectors).result := by
  rw [publish]
  cases adjacentDuplicate? (injectors.map Injector.name) <;> rfl

/-- The lines of a traversal are those of its steps, up to the first failure. -/
theorem traverse_lines (generator : Generator) (requests : List Request) :
    (Logged.traverse generator.generate requests).lines =
      (throughFirst (Logged.failsOn generator.generate) requests).flatMap fun request =>
        (generator.generate request).lines := by
  rw [Logged.lines, Logged.traverse_events, List.map_flatMap]
  rfl

/-- A batch has the logs of its requests through the first one that is refused, and its summary. -/
theorem generateAll_lines :
    (generator.generateAll requests).lines =
      ((throughFirst (Logged.failsOn generator.generate) requests).flatMap fun request =>
        (generator.generate request).lines) ++
      summary requests.length (generator.generateAll requests).result := by
  rw [generateAll_eq_generateAllBy, ← traverse_lines]
  cases htraverse : (Logged.traverse generator.generate requests).result with
  | error fault =>
      rw [generateAllBy_of_refused htraverse, generateAllBy, Logged.lines,
        Logged.bind_events_of_error htraverse, summary, List.append_nil]
      rfl
  | ok injectors =>
      have hserves : generator.Serves requests injectors := Logged.traverse_eq_ok_iff.mp htraverse
      have hlength : (NameSort.stable.sort injectors).length = requests.length :=
        (NameSort.stable.perm injectors).length_eq.trans (List.Forall₂.length_eq hserves).symm
      rw [generateAllBy_of_serves hserves, generateAllBy, Logged.lines,
        Logged.bind_events_of_ok htraverse, List.map_append]
      change _ ++ (publish (NameSort.stable.sort injectors)).lines = _
      rw [publish_lines, hlength]
      rfl

/-- A line above `debug` shows how the batch ended. -/
theorem exists_level_iff {level : Level} (hlevel : level ≠ .debug) :
    (∃ line ∈ (generator.generateAll requests).lines, line.level = level) ↔
      (Phase.ofResult .published (generator.generateAll requests).result).mark = level := by
  have hmark := (Phase.reads_generateAll generator requests).mark hlevel
  have hstart : Phase.between.mark ≠ level := fun heq => hlevel heq.symm
  rw [or_iff_right hstart] at hmark
  exact hmark.symm

/-- The log of a batch, and what can be told from it about the result. -/
structure BatchLog (generator : Generator) (requests : List Request) (log : List Line)
    (result : Except GenerationError (List Injector)) : Prop where
  /-- The requests are reported in order, up to and including the first that fails. -/
  lines : log =
    ((throughFirst (Logged.failsOn generator.generate) requests).flatMap fun request =>
      (generator.generate request).lines) ++ summary requests.length result
  /-- The log can be read, and ends in the phase that the result stands for. -/
  reads : ∀ phase, Phase.between.Reads log phase ↔ phase = .ofResult .published result
  warns : (∃ line ∈ log, line.level = .warn) ↔ ∃ cause, result = .error (.unresolvable cause)
  informs : (∃ line ∈ log, line.level = .info) ↔ ∃ published, result = .ok published

theorem batchLog_generateAll (generator : Generator) (requests : List Request) :
    generator.BatchLog requests (generator.generateAll requests).lines
      (generator.generateAll requests).result where
  lines := generateAll_lines
  reads phase := by
    have hreads := Phase.reads_generateAll generator requests
    constructor
    · intro hphase
      exact hphase.unique hreads
    · intro hphase
      rw [hphase]
      exact hreads
  warns := by
    rw [exists_level_iff (by decide)]
    exact Phase.mark_ofResult_eq_warn_iff
  informs := by
    rw [exists_level_iff (by decide)]
    exact Phase.mark_ofResult_eq_info_iff

/-- The log agrees with the result.  A request is reported by one of three forms, and
each form belongs to one kind of result; a batch is reported request by request and
summed up exactly if it succeeds; and registered targets are a batch in the order of
their simple names, announced by their number. -/
theorem log_agrees_with_result (generator : Generator) :
    (∀ request lines result,
      (generator.generate request).lines = lines ∧ (generator.generate request).result = result ↔
        generator.RequestLog request lines result) ∧
    (∀ request, Phase.between.Reads (generator.generate request).lines
      (.ofResult .between (generator.generate request).result)) ∧
    (∀ requests, generator.BatchLog requests (generator.generateAll requests).lines
      (generator.generateAll requests).result) ∧
    ∀ registered, ∃ sorted lines,
      sorted.Perm registered ∧
      (sorted.map fun request => request.target.simpleName).Pairwise (· ≤ ·) ∧
      generator.BatchLog sorted lines (generator.generateAll sorted).result ∧
      (generator.generateRegistered registered).lines = .found registered.length :: lines ∧
      (generator.generateRegistered registered).result =
        (generator.generateAll sorted).result := by
  refine ⟨?_, Phase.reads_generate generator, batchLog_generateAll generator, ?_⟩
  · intro request lines result
    constructor
    · intro hgenerate
      rw [← hgenerate.1, ← hgenerate.2]
      exact requestLog_generate
    · intro hlog
      exact hlog.eq
  · intro registered
    have hsorted := pairwise_map_mergeSort (fun request => request.target.simpleName) registered
    have hbatch := batchLog_generateAll generator (bySimpleName registered)
    exact ⟨bySimpleName registered, _, List.mergeSort_perm _ _, hsorted, hbatch, rfl, rfl⟩

end Generator

end FieldWiring
