import FieldWiring.Proofs.Decimals
import FieldWiring.Proofs.Documents
import FieldWiring.Proofs.Shortest
import FieldWiring.Settings

/-!
# Layers of settings

Each setting is decided for itself: by the variable that sets it, or else by the file, or
else by the default.  The sources are laid over each other entry by entry, and what makes
the settings independent is that no key reaches into a part of one of them.  A value that
is no text is complained about only where it decides.
-/

namespace FieldWiring.Settings

/-! ## Keys -/

def settingNames : List String :=
  ["component_prefix", "value_prefix", "injector_suffix", "param_name"]

/-- The key reaches into no part of a setting. -/
def KeepsWhole (key : String) : Prop :=
  ∀ path, KeyPath.read? key = some path → path.root ∈ settingNames → path.steps = []

theorem KeyPath.eq_of_readName {text name : List Char}
    (hread : KeyPath.readName text = some (name, [])) : name = text := by
  induction text generalizing name with
  | nil =>
      rw [KeyPath.readName] at hread
      cases hread
      rfl
  | cons c rest ih =>
      rw [KeyPath.readName] at hread
      by_cases hname : KeyPath.isNameChar c = true
      · rw [if_pos hname] at hread
        obtain ⟨⟨read, steps⟩, hrest, heq⟩ := Option.map_eq_some_iff.mp hread
        cases heq
        rw [ih hrest]
      · rw [if_neg hname] at hread
        -- Behind a full stop or a bracket there is always a step.
        by_cases hdot : c = '.'
        · rw [if_pos hdot] at hread
          split at hread <;> cases hread
        · rw [if_neg hdot] at hread
          by_cases hbracket : c = '['
          · rw [if_pos hbracket] at hread
            obtain ⟨read, -, hindex⟩ := Option.bind_eq_some_iff.mp hread
            obtain ⟨value, -, heq⟩ := Option.map_eq_some_iff.mp hindex
            cases heq
          · rw [if_neg hbracket] at hread
            cases hread

theorem KeyPath.root_eq_of_read? {key : String} {path : KeyPath}
    (hread : KeyPath.read? key = some path) (hsteps : path.steps = []) : path.root = key := by
  rw [KeyPath.read?] at hread
  split at hread
  · rename_i first name steps hname
    cases hread
    cases hsteps
    rw [KeyPath.eq_of_readName hname, String.ofList_toList]
  · cases hread

theorem KeyPath.read?_of_mem_settingNames {name : String} (hname : name ∈ settingNames) :
    KeyPath.read? name = some ⟨name, []⟩ := by
  simp only [settingNames, List.mem_cons, List.not_mem_nil, or_false] at hname
  rcases hname with rfl | rfl | rfl | rfl <;> rfl

theorem keepsWhole_of_mem_settingNames {name : String} (hname : name ∈ settingNames) :
    KeepsWhole name := by
  intro path hread _
  rw [KeyPath.read?_of_mem_settingNames hname] at hread
  cases hread
  rfl

/-! ## Entries -/

variable {name : String} {entry : Entry} {entries : List Entry}

/-- An entry whose key keeps settings whole decides the setting of that name and no
other one. -/
theorem Slot.put_of_keepsWhole (hname : name ∈ settingNames) (hkey : KeepsWhole entry.key)
    (slot : Slot) : Slot.put name slot entry = if entry.key = name then entry.value else slot := by
  by_cases heq : entry.key = name
  · rw [if_pos heq, Slot.put, heq, KeyPath.read?_of_mem_settingNames hname]
    exact if_neg fun hne => hne rfl
  · rw [if_neg heq, Slot.put]
    cases hread : KeyPath.read? entry.key with
    | none => rfl
    | some path =>
        have hroot : path.root ≠ name := by
          intro hroot
          have hsteps := hkey path hread (hroot ▸ hname)
          exact heq ((KeyPath.root_eq_of_read? hread hsteps).symm.trans hroot)
        exact if_pos hroot

/-- The value of the last entry with exactly this key. -/
def lastValue? (entries : List Entry) (name : String) : Option Slot :=
  (entries.reverse.find? fun entry => entry.key == name).map Entry.value

theorem lastValue?_append (front back : List Entry) (name : String) :
    lastValue? (front ++ back) name = (lastValue? back name).or (lastValue? front name) := by
  rw [lastValue?, List.reverse_append, List.find?_append, Option.map_or, lastValue?, lastValue?]

theorem lastValue?_singleton (entry : Entry) (name : String) :
    lastValue? [entry] name = if entry.key = name then some entry.value else none := by
  by_cases heq : entry.key = name <;> simp [lastValue?, heq]

/-- As long as no key reaches into a part, the last entry for a name decides its slot. -/
theorem Slot.foldl_put_eq (hname : name ∈ settingNames)
    (hkeys : ∀ entry ∈ entries, KeepsWhole entry.key) (slot : Slot) :
    entries.foldl (Slot.put name) slot = (lastValue? entries name).getD slot := by
  induction entries generalizing slot with
  | nil => rfl
  | cons head tail ih =>
      obtain ⟨hhead, htail⟩ := List.forall_mem_cons.mp hkeys
      rw [List.foldl_cons, ih htail, Slot.put_of_keepsWhole hname hhead, ← List.singleton_append,
        lastValue?_append, lastValue?_singleton]
      cases lastValue? tail name with
      | some value => rfl
      | none => by_cases heq : head.key = name <;> simp [heq]

/-! ## Sources -/

variable {environment : List (String × String)} {document : Option Json}

/-- Whether a variable sets the setting of this name: in small letters it is called by the name
behind `prefroom_`. -/
def sets (name : String) (setting : String × String) : Bool :=
  setting.1.toList.map toSmall == "prefroom_".toList ++ name.toList

/-- A variable sets the setting that its key names. -/
theorem sets_iff {setting : String × String} :
    sets name setting = true ↔ environmentKey? setting.1 = some name := by
  rw [sets, beq_iff_eq, environmentKey?, Option.map_eq_some_iff]
  constructor
  · intro h
    exact ⟨name.toList, List.isPrefixOf?_eq_some_iff_append_eq.mpr h.symm, String.ofList_toList⟩
  · intro h
    obtain ⟨key, hkey, rfl⟩ := h
    have htoList : (String.ofList key).toList = key := String.toList_ofList
    rw [htoList]
    exact (List.isPrefixOf?_eq_some_iff_append_eq.mp hkey).symm

def variableText? (environment : List (String × String)) (name : String) : Option String :=
  (environment.find? (sets name)).map Prod.snd

/-- The last value of exactly this key in the file. -/
def fileValue? (document : Json) (name : String) : Option Json :=
  (document.entries.reverse.find? fun entry => entry.1 == name).map Prod.snd

/-- The value that decides the setting of this name: the text of a variable, or else what the
file has under exactly this key. -/
def winning (document : Option Json) (environment : List (String × String)) (name : String) :
    Option Json :=
  match variableText? environment name with
  | some text => some (.text text)
  | none => document.bind fun value => fileValue? value name

def documentEntries (document : Option Json) : List Entry :=
  (document.elim [] Json.entries).map fun entry => ⟨entry.1, .ofJson entry.2⟩

/-- The file has for a slot what stands last under its name. -/
theorem lastValue?_documentEntries :
    lastValue? (documentEntries document) name =
      (document.bind fun value => fileValue? value name).map Slot.ofJson := by
  cases document with
  | none => rfl
  | some value =>
      rw [lastValue?, documentEntries, ← List.map_reverse, List.find?_map, Option.bind_some,
        fileValue?, Option.map_map, Option.map_map]
      rfl

/-- Where only one element passes, the search may begin at either end. -/
theorem find?_reverse_of_length_filter {α : Type} {p : α → Bool} {elements : List α}
    (hone : (elements.filter p).length ≤ 1) : elements.reverse.find? p = elements.find? p := by
  rw [← List.head?_filter, ← List.head?_filter, List.filter_reverse]
  match elements.filter p, hone with
  | [], _ => rfl
  | [_], _ => rfl

/-- The variables have for a slot the text of the one that sets it. -/
theorem lastValue?_environmentEntries (hone : (environment.filter (sets name)).length ≤ 1) :
    lastValue? (environmentEntries environment) name =
      (variableText? environment name).map Slot.text := by
  have hsets : (fun setting : String × String =>
      ((environmentKey? setting.1).map fun key => (⟨key, .text setting.2⟩ : Entry)).any
        fun entry => entry.key == name) = sets name := by
    funext setting
    rw [Bool.eq_iff_iff, sets_iff]
    cases hkey : environmentKey? setting.1 <;> simp
  rw [lastValue?, environmentEntries, ← List.filterMap_reverse, List.find?_filterMap, hsets,
    find?_reverse_of_length_filter hone, variableText?]
  cases hfound : environment.find? (sets name) with
  | none => rfl
  | some setting =>
      have hkey := sets_iff.mp (List.find?_some hfound)
      simp [hkey]

/-- The variables set each setting at most once, and no key of either source reaches into
a part of a setting. -/
structure Separate (document : Option Json) (environment : List (String × String)) : Prop where
  once : ∀ name ∈ settingNames, (environment.filter (sets name)).length ≤ 1
  document : ∀ value, document = some value → ∀ entry ∈ value.entries, KeepsWhole entry.1
  environment : ∀ setting ∈ environment, ∀ key, sets key setting = true → KeepsWhole key

theorem Separate.keepsWhole (hseparate : Separate document environment) :
    ∀ entry ∈ documentEntries document ++ environmentEntries environment,
      KeepsWhole entry.key := by
  intro entry hmem
  cases List.mem_append.mp hmem with
  | inl hdocument =>
      cases document with
      | none => cases hdocument
      | some value =>
          obtain ⟨written, hwritten, rfl⟩ := List.mem_map.mp hdocument
          exact hseparate.document value rfl written hwritten
  | inr henvironment =>
      obtain ⟨setting, hsetting, hentry⟩ := List.mem_filterMap.mp henvironment
      obtain ⟨key, hkey, rfl⟩ := Option.map_eq_some_iff.mp hentry
      exact hseparate.environment setting hsetting key (sets_iff.mpr hkey)

/-- What the sources put into the slot of a setting is what decides it. -/
theorem ofEntries_eq_winning (hseparate : Separate document environment)
    (hname : name ∈ settingNames) :
    Slot.ofEntries name (documentEntries document ++ environmentEntries environment) =
      ((winning document environment name).map Slot.ofJson).getD .unset := by
  rw [Slot.ofEntries, Slot.foldl_put_eq hname hseparate.keepsWhole, lastValue?_append,
    lastValue?_environmentEntries (hseparate.once name hname), lastValue?_documentEntries, winning]
  cases variableText? environment name <;> rfl

/-! ## Settings -/

/-- The text of a setting that is decided by this value, or by its default.  A number that is
no whole one is written as the shortest decimal that is rounded to it. -/
inductive Gives (default : String) : Option Json → String → Prop where
  | missing : Gives default none default
  | null : Gives default (some .null) default
  | text (value : String) : Gives default (some (.text value)) value
  | yes : Gives default (some (.bool true)) "true"
  | no : Gives default (some (.bool false)) "false"
  | whole (value : Int) : Gives default (some (.number (.whole value))) (toString value)
  | real {negative : Bool} {magnitude : Binary64} {decimal : Decimal} {digits : List Char}
      (hshortest : magnitude.IsShortest decimal) (hdigits : Json.IsPositional decimal digits) :
      Gives default (some (.number (.real negative magnitude)))
        ((if negative then "-" else "") ++ String.ofList digits)

/-- What is complained about if this value decides the setting of the given name. -/
inductive IsRefused (name : String) : Option Json → SettingsError → Prop where
  | array (items : List Json) : IsRefused name (some (.array items)) (.sequence name true)
  | object (entries : List (String × Json)) : IsRefused name (some (.object entries)) (.table name)

variable {value : Option Json} {default text : String}

theorem Gives.not_isRefused (hgives : Gives default value text) (name : String)
    (fault : SettingsError) : ¬ IsRefused name value fault := by
  intro hrefused
  cases hrefused <;> cases hgives

/-- The magnitude of a number of the format is written as its shortest decimal. -/
theorem gives_real_iff {negative : Bool} {magnitude : Binary64} {literal : Json.Literal}
    (hnumber : Json.IsNumber literal (.real negative magnitude)) :
    text = (Json.Number.real negative magnitude).text ↔
      Gives default (some (.number (.real negative magnitude))) text := by
  obtain ⟨x, hrounded⟩ : ∃ x, magnitude.IsRounded x := by
    cases hnumber with
    | real _ _ hreading => exact hreading.exists_isRounded
  have hcanonical := hrounded.nearest.canonical
  constructor
  · rintro rfl
    have hshortest := hcanonical.isShortest hrounded.finite
    obtain ⟨digits, hdigits⟩ := Json.exists_isPositional magnitude.shortest
    rw [Json.Number.text, (Json.positional_eq_iff hshortest.coefficient_ne_zero).mpr hdigits]
    exact .real hshortest hdigits
  · intro hgives
    cases hgives with
    | real hshortest hdigits =>
        rw [Json.Number.text, (Binary64.isShortest_iff hcanonical hrounded.finite).mp hshortest,
          (Json.positional_eq_iff hshortest.coefficient_ne_zero).mpr hdigits]

/-- The value is no number, or one that the format has. -/
def IsReadable (value : Option Json) : Prop :=
  ∀ number, value = some (.number number) → ∃ literal, Json.IsNumber literal number

/-- A slot has the text that its deciding value gives. -/
theorem textOf_eq_ok_iff (hreadable : IsReadable value)
    (hslot : Slot.ofEntries name entries = (value.map Slot.ofJson).getD .unset) :
    textOf name default entries = .ok text ↔ Gives default value text := by
  rw [textOf, hslot]
  constructor
  · intro htext
    match value with
    | none => cases htext; exact .missing
    | some .null => cases htext; exact .null
    | some (.bool true) => cases htext; exact .yes
    | some (.bool false) => cases htext; exact .no
    | some (.number (.whole number)) => cases htext; exact .whole number
    | some (.number (.real negative magnitude)) =>
        obtain ⟨literal, hnumber⟩ := hreadable _ rfl
        exact (gives_real_iff hnumber).mp (Except.ok.inj htext).symm
    | some (.text _) => cases htext; exact .text _
    | some (.array _) | some (.object _) => cases htext
  · intro hgives
    cases hgives with
    | missing | null | text | yes | no | whole => rfl
    | @real negative magnitude _ _ hshortest hdigits =>
        obtain ⟨literal, hnumber⟩ := hreadable _ rfl
        have hgives : Gives default (some (.number (.real negative magnitude))) _ :=
          .real hshortest hdigits
        exact congrArg Except.ok ((gives_real_iff hnumber).mpr hgives).symm

/-- A slot is refused for the fault of its deciding value. -/
theorem textOf_eq_error_iff {fault : SettingsError}
    (hslot : Slot.ofEntries name entries = (value.map Slot.ofJson).getD .unset) :
    textOf name default entries = .error fault ↔ IsRefused name value fault := by
  rw [textOf, hslot]
  constructor
  · intro hfault
    match value with
    | none | some .null | some (.bool _) | some (.number _) | some (.text _) => cases hfault
    | some (.array items) => cases hfault; exact .array items
    | some (.object members) => cases hfault; exact .object members
  · intro hrefused
    cases hrefused <;> rfl

theorem exists_textOf_eq_ok (hrefused : ∀ fault, textOf name default entries ≠ .error fault) :
    ∃ text, textOf name default entries = .ok text := by
  cases hread : textOf name default entries with
  | ok text => exact ⟨text, rfl⟩
  | error fault => exact absurd hread (hrefused fault)

theorem bind_eq_ok_iff {ε α β : Type} {first : Except ε α} {next : α → Except ε β} {result : β} :
    first >>= next = .ok result ↔ ∃ value, first = .ok value ∧ next value = .ok result := by
  cases first with
  | error fault =>
      constructor
      · intro h
        cases h
      · intro h
        obtain ⟨value, hvalue, -⟩ := h
        cases hvalue
  | ok value =>
      constructor
      · intro h
        exact ⟨value, rfl, h⟩
      · intro h
        obtain ⟨found, hfound, hnext⟩ := h
        cases hfound
        exact hnext

/-- The settings are read one by one, and each by itself. -/
theorem naming_eq_ok_iff {read : Naming} :
    naming entries = .ok read ↔
      textOf "component_prefix" "PreferenceComponent_" entries = .ok read.componentPrefix ∧
      textOf "value_prefix" "Preference_" entries = .ok read.valuePrefix ∧
      textOf "injector_suffix" "_Injector" entries = .ok read.injectorSuffix ∧
      textOf "param_name" "injectObject" entries = .ok read.parameterName := by
  rw [naming]
  simp only [bind_eq_ok_iff]
  constructor
  · intro h
    obtain ⟨componentPrefix, hcomponent, valuePrefix, hvalue, injectorSuffix, hinjector,
      parameterName, hparameter, heq⟩ := h
    cases heq
    exact ⟨hcomponent, hvalue, hinjector, hparameter⟩
  · intro h
    obtain ⟨hcomponent, hvalue, hinjector, hparameter⟩ := h
    exact ⟨_, hcomponent, _, hvalue, _, hinjector, _, hparameter, rfl⟩

/-- Settings of which one alone is refused are refused with its complaint. -/
theorem naming_eq_error {fault : SettingsError} (hname : name ∈ settingNames)
    (hfault : ∀ default, textOf name default entries = .error fault)
    (hothers : ∀ other ∈ settingNames, other ≠ name → ∀ default,
      ∃ text, textOf other default entries = .ok text) :
    naming entries = .error fault := by
  simp only [settingNames, List.mem_cons, List.not_mem_nil, or_false] at hname
  rw [naming]
  rcases hname with rfl | rfl | rfl | rfl
  · rw [hfault]
    rfl
  · obtain ⟨_, hcomponent⟩ := hothers "component_prefix" (by decide) (by decide) _
    rw [hcomponent, hfault]
    rfl
  · obtain ⟨_, hcomponent⟩ := hothers "component_prefix" (by decide) (by decide) _
    obtain ⟨_, hvalue⟩ := hothers "value_prefix" (by decide) (by decide) _
    rw [hcomponent, hvalue, hfault]
    rfl
  · obtain ⟨_, hcomponent⟩ := hothers "component_prefix" (by decide) (by decide) _
    obtain ⟨_, hvalue⟩ := hothers "value_prefix" (by decide) (by decide) _
    obtain ⟨_, hinjector⟩ := hothers "injector_suffix" (by decide) (by decide) _
    rw [hcomponent, hvalue, hinjector, hfault]
    rfl

/-- The value that a file holds, if it is a text at all. -/
inductive Holds (file : Option ByteArray) : Option Json → Prop where
  | nothing (hfile : file.bind String.fromUTF8? = none) : Holds file none
  | value {text : String} {value : Json} (hfile : file.bind String.fromUTF8? = some text)
      (hdocument : Json.IsDocument text.toList value) : Holds file (some value)

/-- The entries of a file are those of the value that it holds. -/
theorem fileEntries_of_holds {file : Option ByteArray} (hholds : Holds file document) :
    fileEntries file = .ok (documentEntries document) := by
  cases hholds with
  | nothing hfile =>
      rw [fileEntries, hfile]
      rfl
  | value hfile hdocument =>
      rw [fileEntries, hfile]
      simp only [Json.read?_eq_some_iff.mpr hdocument]
      rfl

/-- A number that decides a setting is in the file, as one that the format has. -/
theorem isReadable_winning {file : Option ByteArray} (hholds : Holds file document)
    (name : String) : IsReadable (winning document environment name) := by
  intro number hwinning
  rw [winning] at hwinning
  split at hwinning
  · cases hwinning
  · cases hholds with
    | nothing => cases hwinning
    | @value _ value _ hdocument =>
        obtain ⟨⟨key, _⟩, hentry, rfl⟩ := Option.map_eq_some_iff.mp hwinning
        exact hdocument.exists_isNumber (List.mem_reverse.mp (List.mem_of_find?_eq_some hentry))

/-- The naming has these texts, where each setting is decided for itself. -/
structure Decides (document : Option Json) (environment : List (String × String))
    (naming : Naming) : Prop where
  componentPrefix : Gives "PreferenceComponent_" (winning document environment "component_prefix")
    naming.componentPrefix
  valuePrefix : Gives "Preference_" (winning document environment "value_prefix")
    naming.valuePrefix
  injectorSuffix : Gives "_Injector" (winning document environment "injector_suffix")
    naming.injectorSuffix
  parameterName : Gives "injectObject" (winning document environment "param_name")
    naming.parameterName

/-- A file that is a text but no document is refused whatever the variables are.  Otherwise
each setting has the text of the value that decides it, if none of these is an array or an
object; and if exactly one of them is, it is what is complained about. -/
theorem load_layers {file : Option ByteArray} {environment : List (String × String)} :
    (∀ text, file.bind String.fromUTF8? = some text →
      (¬ ∃ value, Json.IsDocument text.toList value) →
      load file environment = .error .malformedFile) ∧
    ∀ document, Holds file document → Separate document environment →
      (∀ naming, load file environment = .ok naming ↔ Decides document environment naming) ∧
      ((∀ name ∈ settingNames, ∀ fault,
          ¬ IsRefused name (winning document environment name) fault) →
        ∃ naming, load file environment = .ok naming) ∧
      ∀ name ∈ settingNames, ∀ fault, IsRefused name (winning document environment name) fault →
        (∀ other ∈ settingNames, other ≠ name →
          ∀ fault, ¬ IsRefused other (winning document environment other) fault) →
        load file environment = .error fault := by
  refine ⟨?_, ?_⟩
  · intro text hfile hdocument
    rw [load, fileEntries, hfile]
    simp only [Json.read?_eq_none_iff.mpr hdocument]
    rfl
  · intro document hholds hseparate
    have hload : load file environment =
        naming (documentEntries document ++ environmentEntries environment) := by
      rw [load, fileEntries_of_holds hholds]
      rfl
    have hslot : ∀ name ∈ settingNames, Slot.ofEntries name
        (documentEntries document ++ environmentEntries environment) =
          ((winning document environment name).map Slot.ofJson).getD .unset :=
      fun name => ofEntries_eq_winning hseparate
    have hreadable : ∀ name, IsReadable (winning document environment name) :=
      isReadable_winning hholds
    have hexists : ∀ name ∈ settingNames,
        (∀ fault, ¬ IsRefused name (winning document environment name) fault) → ∀ default,
        ∃ text, textOf name default (documentEntries document ++ environmentEntries environment) =
          .ok text := by
      intro name hname hrefused default
      apply exists_textOf_eq_ok
      intro fault hfault
      exact hrefused fault ((textOf_eq_error_iff (hslot name hname)).mp hfault)
    rw [hload]
    refine ⟨?_, ?_, ?_⟩
    · intro naming
      rw [naming_eq_ok_iff, textOf_eq_ok_iff (hreadable _) (hslot "component_prefix" (by decide)),
        textOf_eq_ok_iff (hreadable _) (hslot "value_prefix" (by decide)),
        textOf_eq_ok_iff (hreadable _) (hslot "injector_suffix" (by decide)),
        textOf_eq_ok_iff (hreadable _) (hslot "param_name" (by decide))]
      exact ⟨fun h => ⟨h.1, h.2.1, h.2.2.1, h.2.2.2⟩,
        fun h => ⟨h.componentPrefix, h.valuePrefix, h.injectorSuffix, h.parameterName⟩⟩
    · intro hrefused
      have hread := fun name hname => hexists name hname (hrefused name hname)
      obtain ⟨componentPrefix, hcomponent⟩ := hread "component_prefix" (by decide) _
      obtain ⟨valuePrefix, hvalue⟩ := hread "value_prefix" (by decide) _
      obtain ⟨injectorSuffix, hinjector⟩ := hread "injector_suffix" (by decide) _
      obtain ⟨parameterName, hparameter⟩ := hread "param_name" (by decide) _
      exact ⟨⟨componentPrefix, valuePrefix, injectorSuffix, parameterName⟩,
        naming_eq_ok_iff.mpr ⟨hcomponent, hvalue, hinjector, hparameter⟩⟩
    · intro name hname fault hrefused hothers
      apply naming_eq_error hname
      · intro default
        exact (textOf_eq_error_iff (hslot name hname)).mpr hrefused
      · intro other hother hne
        exact hexists other hother (hothers other hother hne)

theorem fromUTF8?_toUTF8 (text : String) : String.fromUTF8? text.toUTF8 = some text := by
  rw [String.fromUTF8?]
  exact dif_pos text.isValidUTF8

/-- Sources with nothing but settings, each set once by the variables, are separate. -/
theorem separate_of_mem_settingNames {document : Json}
    (hdocument : ∀ entry ∈ document.entries, entry.1 ∈ settingNames)
    (henvironment : ∀ setting ∈ environment, ∀ key ∈ environmentKey? setting.1,
      key ∈ settingNames)
    (honce : ∀ name ∈ settingNames, (environment.filter (sets name)).length ≤ 1) :
    Separate (some document) environment where
  once := honce
  document value hvalue entry hentry := by
    cases hvalue
    exact keepsWhole_of_mem_settingNames (hdocument entry hentry)
  environment setting hsetting key hkey :=
    keepsWhole_of_mem_settingNames (henvironment setting hsetting key (sets_iff.mp hkey))

/-- An empty variable decides its setting although the file has a sequence there; the other
settings are those of the file.  Without the variable the sequence is complained about.
Constants and numbers give texts. -/
theorem load_layers_param_name :
    let text := "\x7b\"component_prefix\": null, \"value_prefix\": \"V_\", " ++
      "\"injector_suffix\": -12, \"param_name\": [true]\x7d"
    let document : Json := .object [("component_prefix", .null), ("value_prefix", .text "V_"),
      ("injector_suffix", .number (.whole (-12))), ("param_name", .array [.bool true])]
    let environment := [("PREFROOM_PARAM_NAME", ""), ("PATH", "a.b")]
    let numbers := "\x7b\"component_prefix\": true, \"value_prefix\": 2.50\x7d"
    Holds (some text.toUTF8) (some document) ∧ Separate (some document) environment ∧
      load (some text.toUTF8) environment = .ok ⟨"PreferenceComponent_", "V_", "-12", ""⟩ ∧
      load (some text.toUTF8) [] = .error (.sequence "param_name" true) ∧
      load (some "[1,]".toUTF8) environment = .error .malformedFile ∧
      load (some numbers.toUTF8) [] = .ok ⟨"true", "2.5", "_Injector", "injectObject"⟩ := by
  intro text document environment numbers
  have hread : Json.read? text.toList = some document := by
    simp only [text, document]
    rfl
  have hholds : Holds (some text.toUTF8) (some document) :=
    .value (fromUTF8?_toUTF8 text) (Json.read?_eq_some_iff.mp hread)
  have hkeys : ∀ entry ∈ document.entries, entry.1 ∈ settingNames := by decide
  have hseparate : Separate (some document) environment :=
    separate_of_mem_settingNames hkeys (by decide) (by decide)
  have halone : Separate (some document) [] :=
    separate_of_mem_settingNames hkeys (by decide) (by decide)
  refine ⟨hholds, hseparate, ?_, ?_, ?_, ?_⟩
  · apply ((load_layers.2 _ hholds hseparate).1 _).mpr
    exact ⟨.null, .text "V_", .whole (-12), .text ""⟩
  · apply (load_layers.2 _ hholds halone).2.2 "param_name" (by decide)
    · exact .array [.bool true]
    · intro other hother hne
      simp only [settingNames, List.mem_cons, List.not_mem_nil, or_false] at hother
      rcases hother with rfl | rfl | rfl | rfl
      · exact Gives.not_isRefused (.null : Gives "" (some .null) "") _
      · exact Gives.not_isRefused (.text "V_" : Gives "" (some (.text "V_")) _) _
      · exact Gives.not_isRefused (.whole (-12) : Gives "" (some (.number (.whole (-12)))) _) _
      · exact absurd rfl hne
  · have htext : (some "[1,]".toUTF8).bind String.fromUTF8? = some "[1,]" := fromUTF8?_toUTF8 _
    exact load_layers.1 "[1,]" htext (Json.read?_eq_none_iff.mp rfl)
  · have htext : (some numbers.toUTF8).bind String.fromUTF8? = some numbers := fromUTF8?_toUTF8 _
    rw [load, fileEntries, htext]
    decide +kernel

end FieldWiring.Settings
