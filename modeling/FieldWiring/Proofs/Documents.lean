import FieldWiring.Proofs.Tokens

/-!
# What a settings file may hold

The format of the file is strict: there are no comments, no comma stands in front of a closing
bracket, and nothing but blanks stands around the value.  The grammar has three limits that
the general format leaves open: values are nested at most 127 deep, a number has to stay in the
range of binary64, and the escapes of surrogates come in pairs.  A text is read exactly if it
belongs to the grammar.
-/

namespace FieldWiring.Json

/-! ## Values -/

mutual

/-- The tokens begin with a value, in which at most `room` arrays and objects are nested. -/
inductive BeginsValue : Nat → List Token → Json → List Token → Prop where
  | scalar {room : Nat} (value : Json) (rest : List Token) :
      BeginsValue room (.scalar value :: rest) value rest
  | quoted {room : Nat} (text : String) (rest : List Token) :
      BeginsValue room (.quoted text :: rest) (.text text) rest
  | emptyArray {room : Nat} (rest : List Token) :
      BeginsValue (room + 1) (.openArray :: .closeArray :: rest) (.array []) rest
  | array {room : Nat} {tokens rest : List Token} {items : List Json}
      (hitems : BeginsItems room tokens items rest) :
      BeginsValue (room + 1) (.openArray :: tokens) (.array items) rest
  | emptyObject {room : Nat} (rest : List Token) :
      BeginsValue (room + 1) (.openObject :: .closeObject :: rest) (.object []) rest
  | object {room : Nat} {tokens rest : List Token} {entries : List (String × Json)}
      (hentries : BeginsEntries room tokens entries rest) :
      BeginsValue (room + 1) (.openObject :: tokens) (.object entries) rest

/-- The tokens begin with values, commas between them, and the end of an array. -/
inductive BeginsItems : Nat → List Token → List Json → List Token → Prop where
  | last {room : Nat} {tokens rest : List Token} {value : Json}
      (hvalue : BeginsValue room tokens value (.closeArray :: rest)) :
      BeginsItems room tokens [value] rest
  | next {room : Nat} {tokens more rest : List Token} {value : Json} {items : List Json}
      (hvalue : BeginsValue room tokens value (.comma :: more))
      (hitems : BeginsItems room more items rest) :
      BeginsItems room tokens (value :: items) rest

/-- The tokens begin with keys and their values, commas between them, and the end of an
object. -/
inductive BeginsEntries : Nat → List Token → List (String × Json) → List Token → Prop where
  | last {room : Nat} {key : String} {tokens rest : List Token} {value : Json}
      (hvalue : BeginsValue room tokens value (.closeObject :: rest)) :
      BeginsEntries room (.quoted key :: .colon :: tokens) [(key, value)] rest
  | next {room : Nat} {key : String} {tokens more rest : List Token} {value : Json}
      {entries : List (String × Json)} (hvalue : BeginsValue room tokens value (.comma :: more))
      (hentries : BeginsEntries room more entries rest) :
      BeginsEntries room (.quoted key :: .colon :: tokens) ((key, value) :: entries) rest

end

/-- The text is one value from end to end, with whatever blanks between its tokens. -/
def IsDocument (text : List Char) (value : Json) : Prop :=
  ∃ tokens, IsCut text tokens ∧ BeginsValue 127 tokens value []

/-- Items do not end before they have begun. -/
theorem not_beginsItems_closeArray {room : Nat} {tokens more : List Token} {items : List Json}
    (hitems : BeginsItems room (.closeArray :: tokens) items more) : False := by
  cases hitems with
  | last hvalue | next hvalue => cases hvalue

mutual

/-- A value is read up to what stands behind it. -/
theorem BeginsValue.readValue_eq {room : Nat} {tokens more : List Token} {value : Json}
    {stack : List Frame} (hvalue : BeginsValue room tokens value more)
    (hroom : stack.length + room = maxDepth) :
    readValue stack tokens = continueWith stack value more := by
  cases hvalue with
  | scalar | quoted => rw [readValue]
  | emptyArray | emptyObject => rw [readValue, if_pos (by omega)]
  | @array room tokens rest items hitems =>
      rw [readValue, if_pos (by omega), hitems.readValue_eq (by omega) []]
      · rfl
      · rintro rest rfl
        exact not_beginsItems_closeArray hitems
  | @object room tokens rest entries hentries =>
      obtain ⟨key, behind, rfl, hread⟩ := hentries.readValue_eq hroom []
      rw [readValue, if_pos (by omega), hread]
      rfl

/-- Items are read behind those that the innermost array holds already. -/
theorem BeginsItems.readValue_eq {room : Nat} {tokens more : List Token} {items : List Json}
    {outer : List Frame} (hitems : BeginsItems room tokens items more)
    (hroom : outer.length + (room + 1) = maxDepth) (seen : List Json) :
    readValue (.array seen :: outer) tokens =
      continueWith outer (.array (seen.reverse ++ items)) more := by
  have hstack : (Frame.array seen :: outer).length + room = maxDepth := by
    rw [List.length_cons]
    omega
  cases hitems with
  | last hvalue =>
      rw [hvalue.readValue_eq hstack, continueWith, List.reverse_cons]
  | next hvalue hitems =>
      rw [hvalue.readValue_eq hstack, continueWith, hitems.readValue_eq hroom, List.reverse_cons,
        List.append_assoc, List.singleton_append]

/-- Entries are read behind those that the innermost object holds already. -/
theorem BeginsEntries.readValue_eq {room : Nat} {tokens more : List Token}
    {entries : List (String × Json)} {outer : List Frame}
    (hentries : BeginsEntries room tokens entries more)
    (hroom : outer.length + (room + 1) = maxDepth) (seen : List (String × Json)) :
    ∃ key rest, tokens = .quoted key :: .colon :: rest ∧
      readValue (.object seen key :: outer) rest =
        continueWith outer (.object (seen.reverse ++ entries)) more := by
  have hstack : ∀ key, (Frame.object seen key :: outer).length + room = maxDepth := by
    intro key
    rw [List.length_cons]
    omega
  cases hentries with
  | @last _ key rest _ value hvalue =>
      refine ⟨key, rest, rfl, ?_⟩
      rw [hvalue.readValue_eq (hstack key), continueWith, List.reverse_cons]
  | @next _ key rest behind _ value entries hvalue hentries =>
      refine ⟨key, rest, rfl, ?_⟩
      obtain ⟨next, later, rfl, hread⟩ := hentries.readValue_eq hroom ((key, value) :: seen)
      rw [hvalue.readValue_eq (hstack key), continueWith, hread, List.reverse_cons,
        List.append_assoc, List.singleton_append]

end

inductive BehindItem (room : Nat) : List Token → List Json → List Token → Prop where
  | close (rest : List Token) : BehindItem room (.closeArray :: rest) [] rest
  | next {tokens rest : List Token} {items : List Json}
      (hitems : BeginsItems room tokens items rest) : BehindItem room (.comma :: tokens) items rest

inductive BehindEntry (room : Nat) : List Token → List (String × Json) → List Token → Prop where
  | close (rest : List Token) : BehindEntry room (.closeObject :: rest) [] rest
  | next {tokens rest : List Token} {entries : List (String × Json)}
      (hentries : BeginsEntries room tokens entries rest) :
      BehindEntry room (.comma :: tokens) entries rest

theorem BeginsValue.items {room : Nat} {tokens middle rest : List Token} {value : Json}
    {items : List Json} (hvalue : BeginsValue room tokens value middle)
    (hbehind : BehindItem room middle items rest) :
    BeginsItems room tokens (value :: items) rest := by
  cases hbehind with
  | close => exact .last hvalue
  | next hitems => exact .next hvalue hitems

theorem BeginsValue.entries {room : Nat} {tokens middle rest : List Token} {value : Json}
    {entries : List (String × Json)} (hvalue : BeginsValue room tokens value middle)
    (hbehind : BehindEntry room middle entries rest) (key : String) :
    BeginsEntries room (.quoted key :: .colon :: tokens) ((key, value) :: entries) rest := by
  cases hbehind with
  | close => exact .last hvalue
  | next hentries => exact .next hvalue hentries

/-- The tokens complete what is open around a value, and the whole is the result. -/
def Closes : List Frame → Json → List Token → Json → Prop
  | [], value, tokens, result => tokens = [] ∧ result = value
  | .array seen :: outer, value, tokens, result =>
      ∃ items rest, BehindItem (maxDepth - (outer.length + 1)) tokens items rest ∧
        Closes outer (.array (seen.reverse ++ value :: items)) rest result
  | .object seen key :: outer, value, tokens, result =>
      ∃ entries rest, BehindEntry (maxDepth - (outer.length + 1)) tokens entries rest ∧
        Closes outer (.object (seen.reverse ++ (key, value) :: entries)) rest result

def ReadsValue (stack : List Frame) (tokens : List Token) : Prop :=
  ∀ result, readValue stack tokens = some result →
    ∃ value rest, BeginsValue (maxDepth - stack.length) tokens value rest ∧
      Closes stack value rest result

def Continues (stack : List Frame) (value : Json) (tokens : List Token) : Prop :=
  ∀ result, continueWith stack value tokens = some result → Closes stack value tokens result

/-- Whatever is read completes what is open, by induction on the tokens. -/
theorem readsValue_and_continues :
    (∀ stack tokens, ReadsValue stack tokens) ∧
      ∀ stack value tokens, Continues stack value tokens := by
  apply readValue.mutual_induct
  case case1 =>
    intro stack value rest ih result hread
    rw [readValue] at hread
    exact ⟨value, rest, .scalar value rest, ih result hread⟩
  case case2 =>
    intro stack text rest ih result hread
    rw [readValue] at hread
    exact ⟨.text text, rest, .quoted text rest, ih result hread⟩
  case case3 =>
    intro stack rest hroom ih result hread
    rw [readValue, if_pos hroom] at hread
    rw [← Nat.sub_one_add_one (Nat.sub_ne_zero_of_lt hroom)]
    exact ⟨.array [], rest, .emptyArray rest, ih result hread⟩
  case case5 =>
    intro stack tokens hfirst hroom ih result hread
    rw [readValue, if_pos hroom] at hread
    · obtain ⟨value, middle, hvalue, items, rest, hbehind, hcloses⟩ := ih result hread
      rw [← Nat.sub_one_add_one (Nat.sub_ne_zero_of_lt hroom)]
      exact ⟨.array (value :: items), rest, .array (hvalue.items hbehind), hcloses⟩
    · exact hfirst
  case case7 =>
    intro stack rest hroom ih result hread
    rw [readValue, if_pos hroom] at hread
    rw [← Nat.sub_one_add_one (Nat.sub_ne_zero_of_lt hroom)]
    exact ⟨.object [], rest, .emptyObject rest, ih result hread⟩
  case case9 =>
    intro stack key tokens hroom ih result hread
    rw [readValue, if_pos hroom] at hread
    obtain ⟨value, middle, hvalue, entries, rest, hbehind, hcloses⟩ := ih result hread
    rw [← Nat.sub_one_add_one (Nat.sub_ne_zero_of_lt hroom)]
    exact ⟨.object ((key, value) :: entries), rest, .object (hvalue.entries hbehind key), hcloses⟩
  case case12 =>
    intro value result hread
    cases hread
    exact ⟨rfl, rfl⟩
  case case13 =>
    intro seen outer value tokens ih result hread
    rw [continueWith] at hread
    obtain ⟨second, middle, hsecond, items, rest, hbehind, hcloses⟩ := ih result hread
    refine ⟨second :: items, rest, .next (hsecond.items hbehind), ?_⟩
    rwa [List.reverse_cons, List.append_assoc, List.singleton_append] at hcloses
  case case14 =>
    intro seen outer value rest ih result hread
    rw [continueWith] at hread
    have hcloses := ih result hread
    rw [List.reverse_cons] at hcloses
    exact ⟨[], rest, .close rest, hcloses⟩
  case case15 =>
    intro seen key outer value next tokens ih result hread
    rw [continueWith] at hread
    obtain ⟨second, middle, hsecond, entries, rest, hbehind, hcloses⟩ := ih result hread
    refine ⟨(next, second) :: entries, rest, .next (hsecond.entries hbehind next), ?_⟩
    rwa [List.reverse_cons, List.append_assoc, List.singleton_append] at hcloses
  case case16 =>
    intro seen key outer value rest ih result hread
    rw [continueWith] at hread
    have hcloses := ih result hread
    rw [List.reverse_cons] at hcloses
    exact ⟨[], rest, .close rest, hcloses⟩
  case case4 | case8 =>
    intro stack rest hfull result hread
    rw [readValue, if_neg hfull] at hread
    cases hread
  case case6 =>
    intro stack rest hfirst hfull result hread
    rw [readValue, if_neg hfull] at hread
    · cases hread
    · exact hfirst
  case case10 =>
    intro stack key rest hfull result hread
    rw [readValue, if_neg hfull] at hread
    cases hread
  case case11 =>
    intros
    intro result hread
    rw [readValue] at hread
    · cases hread
    all_goals assumption
  case case17 =>
    intros
    intro result hread
    rw [continueWith] at hread
    · cases hread
    all_goals assumption

/-- A text is read exactly if it is a document, as the value that it holds. -/
theorem read?_eq_some_iff {text : List Char} {value : Json} :
    read? text = some value ↔ IsDocument text value := by
  constructor
  · intro hread
    obtain ⟨tokens, htokens, hvalue⟩ := Option.bind_eq_some_iff.mp hread
    obtain ⟨found, rest, hbegins, hcloses⟩ := readsValue_and_continues.1 [] tokens value hvalue
    obtain ⟨rfl, rfl⟩ := hcloses
    exact ⟨tokens, tokens?_eq_some_iff.mp htokens, hbegins⟩
  · intro h
    obtain ⟨tokens, hcut, hvalue⟩ := h
    rw [read?, tokens?_eq_some_iff.mpr hcut, Option.bind_some,
      hvalue.readValue_eq (rfl : ([] : List Frame).length + 127 = maxDepth)]
    rfl

/-- What is refused is no document. -/
theorem read?_eq_none_iff {text : List Char} :
    read? text = none ↔ ¬ ∃ value, IsDocument text value := by
  simp only [Option.eq_none_iff_forall_ne_some, ne_eq, read?_eq_some_iff, not_exists]

/-! ## Numbers in a document -/

mutual

theorem BeginsValue.suffix {room : Nat} {tokens rest : List Token} {value : Json}
    (hvalue : BeginsValue room tokens value rest) : rest <:+ tokens := by
  cases hvalue with
  | scalar | quoted => exact List.suffix_cons _ _
  | emptyArray | emptyObject => exact (List.suffix_cons _ _).trans (List.suffix_cons _ _)
  | array hitems => exact hitems.suffix.trans (List.suffix_cons _ _)
  | object hentries => exact hentries.suffix.trans (List.suffix_cons _ _)

theorem BeginsItems.suffix {room : Nat} {tokens rest : List Token} {items : List Json}
    (hitems : BeginsItems room tokens items rest) : rest <:+ tokens := by
  cases hitems with
  | last hvalue => exact (List.suffix_cons _ _).trans hvalue.suffix
  | next hvalue hitems => exact hitems.suffix.trans ((List.suffix_cons _ _).trans hvalue.suffix)

theorem BeginsEntries.suffix {room : Nat} {tokens rest : List Token}
    {entries : List (String × Json)} (hentries : BeginsEntries room tokens entries rest) :
    rest <:+ tokens := by
  have hbehind : ∀ {key : String} {tokens rest : List Token}, rest <:+ tokens →
      rest <:+ .quoted key :: .colon :: tokens := fun hsuffix =>
    hsuffix.trans ((List.suffix_cons _ _).trans (List.suffix_cons _ _))
  cases hentries with
  | last hvalue => exact hbehind ((List.suffix_cons _ _).trans hvalue.suffix)
  | next hvalue hentries =>
      exact hbehind (hentries.suffix.trans ((List.suffix_cons _ _).trans hvalue.suffix))

end

theorem BeginsValue.scalar_mem {room : Nat} {tokens rest : List Token} {number : Number}
    (hvalue : BeginsValue room tokens (.number number) rest) :
    .scalar (.number number) ∈ tokens := by
  cases hvalue with
  | scalar => exact List.mem_cons_self

/-- A number in an object stands among the tokens of the object. -/
theorem BeginsEntries.scalar_mem {room : Nat} {tokens rest : List Token}
    {entries : List (String × Json)} {key : String} {number : Number}
    (hentries : BeginsEntries room tokens entries rest) (hmem : (key, .number number) ∈ entries) :
    .scalar (.number number) ∈ tokens := by
  match hentries, hmem with
  | .last hvalue, hmem =>
      cases List.mem_singleton.mp hmem
      exact List.mem_cons_of_mem _ (List.mem_cons_of_mem _ hvalue.scalar_mem)
  | .next hvalue hentries, hmem =>
      refine List.mem_cons_of_mem _ (List.mem_cons_of_mem _ ?_)
      cases List.mem_cons.mp hmem with
      | inl heq =>
          cases heq
          exact hvalue.scalar_mem
      | inr hmem =>
          exact hvalue.suffix.subset (List.mem_cons_of_mem _ (hentries.scalar_mem hmem))

theorem IsCut.exists_isScalar {text : List Char} {tokens : List Token} {value : Json}
    (hcut : IsCut text tokens) (hmem : .scalar value ∈ tokens) : ∃ word, IsScalar word value := by
  induction hcut with
  | nil => cases hmem
  | space _ _ ih => exact ih hmem
  | mark hmark _ ih =>
      refine ih ((List.mem_cons.mp hmem).resolve_left ?_)
      rintro rfl
      simp [marks] at hmark
  | quoted _ _ ih => exact ih ((List.mem_cons.mp hmem).resolve_left (by simp))
  | @word word _ scalar _ _ _ hscalar _ ih =>
      cases List.mem_cons.mp hmem with
      | inl heq =>
          cases heq
          exact ⟨word, hscalar⟩
      | inr hmem => exact ih hmem

/-- A number in a document is what some number of the format stands for. -/
theorem IsDocument.exists_isNumber {text : List Char} {value : Json} {key : String}
    {number : Number} (hdocument : IsDocument text value)
    (hmem : (key, .number number) ∈ value.entries) : ∃ literal, IsNumber literal number := by
  obtain ⟨tokens, hcut, hvalue⟩ := hdocument
  have hscalar : .scalar (.number number) ∈ tokens := by
    cases hvalue with
    | scalar value =>
        obtain ⟨word, hword⟩ := hcut.exists_isScalar List.mem_cons_self
        cases hword <;> cases hmem
    | quoted | emptyArray | emptyObject | array => cases hmem
    | object hentries => exact List.mem_cons_of_mem _ (hentries.scalar_mem hmem)
  obtain ⟨word, hword⟩ := hcut.exists_isScalar hscalar
  cases hword with
  | number _ hnumber => exact ⟨_, hnumber⟩

/-- A number out of range is no document, and neither is half a pair of surrogates. -/
example : (¬ ∃ value, IsDocument "\x7b\"x\": 1e400\x7d".toList value) ∧
    ¬ ∃ value, IsDocument "[\"\\ud800\"]".toList value :=
  ⟨read?_eq_none_iff.mp (Option.isNone_iff_eq_none.mp (by decide +kernel)),
    read?_eq_none_iff.mp (Option.isNone_iff_eq_none.mp (by decide +kernel))⟩

end FieldWiring.Json
