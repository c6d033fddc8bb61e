import FieldWiring.Proofs.Reordering

/-!
# Batches of several parts

Whether a batch is served whole or in parts, the same injectors come out: the parts
succeed together exactly when each does and no name is in two of them, and what they
publish is merged by name.  A name that is reported for the whole is the least of those
that the parts report and of those that they share.
-/

namespace FieldWiring

/-! ## Names of two lists -/

/-- The name is in both lists, and no lesser one is. -/
structure IsLeastShared (left right : List String) (name : String) : Prop where
  inLeft : name ∈ left
  inRight : name ∈ right
  least : ∀ other ∈ left, other ∈ right → name ≤ other

/-- The name is one of the candidates, and no lesser one is. -/
structure IsLeastOf (candidate : String → Prop) (name : String) : Prop where
  holds : candidate name
  least : ∀ other, candidate other → name ≤ other

/-- A name is repeated in two lists together for one of three reasons. -/
theorem IsLeastRepeated.split {left right : List String} {name : String}
    (hname : IsLeastRepeated (left ++ right) name) :
    IsLeastRepeated left name ∨ IsLeastRepeated right name ∨ IsLeastShared left right name := by
  have hcount : 2 ≤ left.count name + right.count name := by
    rw [← List.count_append]
    exact hname.repeated
  have hleast : ∀ other, 2 ≤ left.count other + right.count other → name ≤ other := by
    intro other hother
    apply hname.least other
    rw [List.count_append]
    exact hother
  by_cases hleft : 2 ≤ left.count name
  · left
    exact ⟨hleft, fun other hother => hleast other (by omega)⟩
  by_cases hright : 2 ≤ right.count name
  · right
    left
    exact ⟨hright, fun other hother => hleast other (by omega)⟩
  · right
    right
    refine ⟨List.count_pos_iff.mp (by omega), List.count_pos_iff.mp (by omega), ?_⟩
    intro other hinLeft hinRight
    have := List.count_pos_iff.mpr hinLeft
    have := List.count_pos_iff.mpr hinRight
    exact hleast other (by omega)

/-! ## Merging by name -/

def mergeByName (left right : List Injector) : List Injector :=
  left.merge right fun first second => decide (first.name ≤ second.name)

theorem mergeByName_perm (left right : List Injector) :
    (mergeByName left right).Perm (left ++ right) :=
  List.merge_perm_append _

theorem mergeByName_sorted {left right : List Injector} (hleft : SortedByInjectorName left)
    (hright : SortedByInjectorName right) : SortedByInjectorName (mergeByName left right) :=
  pairwise_map_merge Injector.name hleft hright

/-- Two lists in strictly increasing order are merged into one, if they share no name. -/
theorem mergeByName_increasing {firsts seconds : List Injector}
    (hfirsts : (firsts.map Injector.name).Pairwise (· < ·))
    (hseconds : (seconds.map Injector.name).Pairwise (· < ·))
    (hapart : ∀ first ∈ firsts, ∀ second ∈ seconds, first.name ≠ second.name) :
    ((mergeByName firsts seconds).map Injector.name).Pairwise (· < ·) := by
  obtain ⟨hsortedFirsts, hnodupFirsts⟩ := increasing_iff.mp hfirsts
  obtain ⟨hsortedSeconds, hnodupSeconds⟩ := increasing_iff.mp hseconds
  apply increasing_iff.mpr
  refine ⟨mergeByName_sorted hsortedFirsts hsortedSeconds, ?_⟩
  rw [((mergeByName_perm firsts seconds).map Injector.name).nodup_iff, List.map_append,
    List.nodup_append]
  refine ⟨hnodupFirsts, hnodupSeconds, ?_⟩
  intro name hname other hother
  obtain ⟨first, hfirst, rfl⟩ := List.mem_map.mp hname
  obtain ⟨second, hsecond, rfl⟩ := List.mem_map.mp hother
  exact hapart first hfirst second hsecond

/-- What was merged into a list is taken out of it again by its names. -/
theorem filter_mergeByName {firsts seconds : List Injector} {names : List String}
    (hfirsts : (firsts.map Injector.name).Pairwise (· < ·))
    (hseconds : (seconds.map Injector.name).Pairwise (· < ·))
    (hkept : ∀ first ∈ firsts, first.name ∉ names)
    (hdropped : ∀ second ∈ seconds, second.name ∈ names) :
    ((mergeByName firsts seconds).filter fun injector => injector.name ∉ names) = firsts := by
  have hstay : (firsts.filter fun injector => injector.name ∉ names) = firsts := by
    apply List.filter_eq_self.mpr
    intro first hfirst
    exact decide_eq_true (hkept first hfirst)
  have hgo : (seconds.filter fun injector => injector.name ∉ names) = [] := by
    apply List.filter_eq_nil_iff.mpr
    intro second hsecond hnot
    exact of_decide_eq_true hnot (hdropped second hsecond)
  have hsame := (mergeByName_perm firsts seconds).filter fun injector => injector.name ∉ names
  rw [List.filter_append, hstay, hgo, List.append_nil] at hsame
  obtain ⟨hsortedFirsts, hnodup⟩ := increasing_iff.mp hfirsts
  obtain ⟨hsortedSeconds, -⟩ := increasing_iff.mp hseconds
  have hmerged := List.pairwise_map.mp (mergeByName_sorted hsortedFirsts hsortedSeconds)
  symm
  apply eq_of_perm_of_pairwise_map hsame.symm hnodup hsortedFirsts
  exact List.pairwise_map.mpr (hmerged.filter _)

namespace Generator

variable {generator : Generator} {front back requests kept dropped : List Request}
variable {firsts seconds published : List Injector}

/-! ## Two parts -/

theorem Serves.append (hfront : generator.Serves front firsts)
    (hback : generator.Serves back seconds) :
    generator.Serves (front ++ back) (firsts ++ seconds) :=
  List.rel_append hfront hback

theorem Serves.split {injectors : List Injector}
    (hserves : generator.Serves (front ++ back) injectors) :
    ∃ firsts seconds, generator.Serves front firsts ∧ generator.Serves back seconds ∧
      injectors = firsts ++ seconds := by
  induction front generalizing injectors with
  | nil => exact ⟨[], injectors, .nil, hserves, rfl⟩
  | cons head tail ih =>
      cases hserves with
      | cons hhead hrest =>
          obtain ⟨firsts, seconds, htail, hback, rfl⟩ := ih hrest
          exact ⟨_ :: firsts, seconds, .cons hhead htail, hback, rfl⟩

/-- Two parts are published together exactly if each is published alone and they share no name. -/
theorem generateAll_append_eq_ok_iff :
    (generator.generateAll (front ++ back)).result = .ok published ↔
      ∃ firsts seconds, (generator.generateAll front).result = .ok firsts ∧
        (generator.generateAll back).result = .ok seconds ∧
        (∀ first ∈ firsts, ∀ second ∈ seconds, first.name ≠ second.name) ∧
        published = mergeByName firsts seconds := by
  constructor
  · intro hpublished
    obtain ⟨injectors, hserves, hperm, hincreasing⟩ := generateAll_eq_ok_iff.mp hpublished
    obtain ⟨yielded, later, hfront, hback, rfl⟩ := hserves.split
    obtain ⟨hsorted, hnodup⟩ := increasing_iff.mp hincreasing
    have hdistinct := (hperm.map Injector.name).nodup_iff.mp hnodup
    rw [List.map_append, List.nodup_append] at hdistinct
    obtain ⟨hnodupFront, hnodupBack, hapart⟩ := hdistinct
    obtain ⟨firsts, hfirsts, hpermFirsts⟩ := exists_published hfront hnodupFront
    obtain ⟨seconds, hseconds, hpermSeconds⟩ := exists_published hback hnodupBack
    refine ⟨firsts, seconds, hfirsts, hseconds, ?_, ?_⟩
    · intro first hfirst second hsecond
      apply hapart
      · exact List.mem_map_of_mem (hpermFirsts.mem_iff.mp hfirst)
      · exact List.mem_map_of_mem (hpermSeconds.mem_iff.mp hsecond)
    -- Distinct names have only one order, and the merge is in that order.
    · have hsame : published.Perm (mergeByName firsts seconds) :=
        calc
          List.Perm published (yielded ++ later) := hperm
          List.Perm _ (firsts ++ seconds) := (hpermFirsts.append hpermSeconds).symm
          List.Perm _ (mergeByName firsts seconds) := (mergeByName_perm firsts seconds).symm
      obtain ⟨hsortedFirsts, -⟩ := increasing_iff.mp (increasing_of_published hfirsts)
      obtain ⟨hsortedSeconds, -⟩ := increasing_iff.mp (increasing_of_published hseconds)
      exact eq_of_perm_of_pairwise_map hsame hnodup hsorted
        (mergeByName_sorted hsortedFirsts hsortedSeconds)
  · intro h
    obtain ⟨firsts, seconds, hfirsts, hseconds, hapart, rfl⟩ := h
    obtain ⟨yielded, hfront, hpermFirsts, hincreasingFirsts⟩ := generateAll_eq_ok_iff.mp hfirsts
    obtain ⟨later, hback, hpermSeconds, hincreasingSeconds⟩ := generateAll_eq_ok_iff.mp hseconds
    apply generateAll_eq_ok_iff.mpr
    refine ⟨yielded ++ later, hfront.append hback, ?_, ?_⟩
    · exact (mergeByName_perm firsts seconds).trans (hpermFirsts.append hpermSeconds)
    · exact mergeByName_increasing hincreasingFirsts hincreasingSeconds hapart

/-! ## Requests that are dropped -/

def injectorNames (generator : Generator) (requests : List Request) : List String :=
  requests.map fun request => generator.naming.injectorName request.target.simpleName

/-- The published names are those that are asked for. -/
theorem names_perm_of_published
    (hpublished : (generator.generateAll requests).result = .ok published) :
    (published.map Injector.name).Perm (generator.injectorNames requests) := by
  obtain ⟨injectors, hserves, hperm, -⟩ := generateAll_eq_ok_iff.mp hpublished
  have hnames : injectors.map Injector.name = generator.injectorNames requests := by
    rw [hserves.names, injectorNames, List.map_map]
    rfl
  rw [← hnames]
  exact hperm.map Injector.name

/-- Whatever is dropped from a batch that succeeds, the rest of it is published as before. -/
theorem generateAll_of_dropped (hperm : requests.Perm (kept ++ dropped))
    (hpublished : (generator.generateAll requests).result = .ok published) :
    (generator.generateAll kept).result =
      .ok (published.filter fun injector => injector.name ∉ generator.injectorNames dropped) := by
  have htogether := generateAll_eq_ok_of_perm hperm hpublished
  obtain ⟨firsts, seconds, hfirsts, hseconds, hapart, rfl⟩ :=
    generateAll_append_eq_ok_iff.mp htogether
  have hnames := names_perm_of_published hseconds
  rw [filter_mergeByName (increasing_of_published hfirsts) (increasing_of_published hseconds)]
  · exact hfirsts
  · intro first hfirst hname
    obtain ⟨second, hsecond, heq⟩ := List.mem_map.mp (hnames.mem_iff.mpr hname)
    exact hapart first hfirst second hsecond heq.symm
  · intro second hsecond
    exact hnames.mem_iff.mp (List.mem_map_of_mem hsecond)

/-! ## The name that is reported -/

/-- A name that may be reported for two parts together: one that is reported for either
of them, or the least one that injectors of both have. -/
inductive Reportable (generator : Generator) (front back : List Request)
    (firsts seconds : List Injector) (name : String) : Prop where
  | front (hfront : (generator.generateAll front).result = .error (.duplicateInjector name))
  | back (hback : (generator.generateAll back).result = .error (.duplicateInjector name))
  | shared (hshared : IsLeastShared (firsts.map Injector.name) (seconds.map Injector.name) name)

theorem isLeastRepeated_of_reported {injectors : List Injector} {name : String}
    (hserves : generator.Serves requests injectors)
    (hreported : (generator.generateAll requests).result = .error (.duplicateInjector name)) :
    IsLeastRepeated (injectors.map Injector.name) name := by
  obtain ⟨least, hleast, heq⟩ := (generateAll_eq_error_iff_of_serves hserves).mp hreported
  cases heq
  exact hleast

/-- The least name that repeats in two parts repeats in one of them or is shared by them. -/
theorem isLeastOf_reportable (hfront : generator.Serves front firsts)
    (hback : generator.Serves back seconds) {name : String}
    (hname : IsLeastRepeated ((firsts ++ seconds).map Injector.name) name) :
    IsLeastOf (generator.Reportable front back firsts seconds) name := by
  rw [List.map_append] at hname
  constructor
  · rcases hname.split with hinFront | hinBack | hshared
    · exact .front ((generateAll_eq_error_iff_of_serves hfront).mpr ⟨name, hinFront, rfl⟩)
    · exact .back ((generateAll_eq_error_iff_of_serves hback).mpr ⟨name, hinBack, rfl⟩)
    · exact .shared hshared
  · intro other hother
    apply hname.least other
    rw [List.count_append]
    cases hother with
    | front hreported =>
        have := (isLeastRepeated_of_reported hfront hreported).repeated
        omega
    | back hreported =>
        have := (isLeastRepeated_of_reported hback hreported).repeated
        omega
    | shared hshared =>
        have := List.count_pos_iff.mpr hshared.inLeft
        have := List.count_pos_iff.mpr hshared.inRight
        omega

/-- Batches compose.  Two of them succeed together exactly when both succeed and share no
injector name, and their lists are then merged by name; so whatever is dropped from a
batch that succeeds, the others stay as they are.  Two batches that fail together over a
name do so over the least one for which there is a reason. -/
theorem generateAll_append (generator : Generator) :
    (∀ front back published, (generator.generateAll (front ++ back)).result = .ok published ↔
      ∃ firsts seconds, (generator.generateAll front).result = .ok firsts ∧
        (generator.generateAll back).result = .ok seconds ∧
        (∀ first ∈ firsts, ∀ second ∈ seconds, first.name ≠ second.name) ∧
        published = mergeByName firsts seconds) ∧
    (∀ requests kept dropped published, requests.Perm (kept ++ dropped) →
      (generator.generateAll requests).result = .ok published →
      (generator.generateAll kept).result = .ok (published.filter fun injector =>
        injector.name ∉ generator.injectorNames dropped)) ∧
    ∀ front back firsts seconds fault, generator.Serves front firsts →
      generator.Serves back seconds →
      (generator.generateAll (front ++ back)).result = .error fault →
      ∃ name, fault = .duplicateInjector name ∧
        IsLeastOf (generator.Reportable front back firsts seconds) name := by
  refine ⟨?_, ?_, ?_⟩
  · intro front back published
    exact generateAll_append_eq_ok_iff
  · intro requests kept dropped published hperm hpublished
    exact generateAll_of_dropped hperm hpublished
  · intro front back firsts seconds fault hfront hback hfault
    obtain ⟨name, hname, heq⟩ :=
      (generateAll_eq_error_iff_of_serves (hfront.append hback)).mp hfault
    exact ⟨name, heq, isLeastOf_reportable hfront hback hname⟩

/-- Requests for the same field of targets with these names, and what they yield. -/
def userRequests (simpleNames : List String) : List Request :=
  simpleNames.map fun simpleName => fieldRequest "main" simpleName "Preference_User"

def userInjectors (simpleNames : List String) : List Injector :=
  simpleNames.map fun simpleName =>
    ⟨simpleName ++ "_Injector", ⟨"injectObject", simpleName, true⟩,
      [⟨"injectObject", "user", "PreferenceComponent_App.getInstance().User()"⟩]⟩

theorem serves_userRequests (simpleNames : List String) :
    appGenerator.Serves (userRequests simpleNames) (userInjectors simpleNames) := by
  induction simpleNames with
  | nil => exact .nil
  | cons head tail ih => exact .cons rfl ih

/-- The first request can be dropped and the others swapped; and of a name repeated in
one part and a lesser one that both parts share, the latter is reported. -/
theorem generateAll_append_user :
    (appGenerator.generateAll (userRequests ["Zeta", "Main"])).result =
      .ok (userInjectors ["Main", "Zeta"]) ∧
    IsLeastOf (appGenerator.Reportable (userRequests ["Zeta", "Alpha", "Beta", "Zeta"])
      (userRequests ["Main", "Beta"]) (userInjectors ["Zeta", "Alpha", "Beta", "Zeta"])
      (userInjectors ["Main", "Beta"])) "Beta_Injector" := by
  constructor
  · have hpublished : (appGenerator.generateAll (userRequests ["User", "Main", "Zeta"])).result =
        .ok (userInjectors ["Main", "User", "Zeta"]) :=
      generateAll_eq_ok_iff.mpr ⟨_, serves_userRequests _, .swap _ _ _, by decide⟩
    exact (generateAll_append appGenerator).2.1 _ (userRequests ["Zeta", "Main"])
      (userRequests ["User"]) _ (by decide) hpublished
  · have hleast : IsLeastRepeated
        ((userInjectors ["Zeta", "Alpha", "Beta", "Zeta"] ++
          userInjectors ["Main", "Beta"]).map Injector.name) "Beta_Injector" := by
      refine ⟨by decide, ?_⟩
      intro other hother
      have hmem := List.count_pos_iff.mp (Nat.lt_of_lt_of_le Nat.zero_lt_two hother)
      simp only [userInjectors, List.map_cons, List.map_nil, List.cons_append, List.nil_append,
        List.mem_cons, List.not_mem_nil, or_false] at hmem
      rcases hmem with rfl | rfl | rfl | rfl | rfl | rfl <;> revert hother <;> decide
    have hserves := (serves_userRequests ["Zeta", "Alpha", "Beta", "Zeta"]).append
      (serves_userRequests ["Main", "Beta"])
    have hfault := (generateAll_eq_error_iff_of_serves hserves).mpr ⟨_, hleast, rfl⟩
    obtain ⟨name, heq, hname⟩ := (generateAll_append appGenerator).2.2 _ _ _ _ _
      (serves_userRequests _) (serves_userRequests _) hfault
    cases heq
    exact hname

end Generator

end FieldWiring
