/-!
# Texts

Facts about characters and lists of characters that do not depend on what a text means:
which characters are blank, what hexadecimal digits stand for, and how a text is cut at a
separator.
-/

namespace FieldWiring.Text

/-! ## Blank characters

A declared type is compared by its characters other than blanks.  Blank is every
character with the Unicode property White_Space, which is more than the blanks of
the ASCII range.
-/

/-- The first and last code points of each run of blank characters. -/
def blankRanges : List (Nat × Nat) :=
  [(0x9, 0xD), (0x20, 0x20), (0x85, 0x85), (0xA0, 0xA0), (0x1680, 0x1680), (0x2000, 0x200A),
    (0x2028, 0x2029), (0x202F, 0x202F), (0x205F, 0x205F), (0x3000, 0x3000)]

def isBlank (c : Char) : Bool :=
  blankRanges.any fun range => range.1 ≤ c.toNat && c.toNat ≤ range.2

def withoutBlanks (text : List Char) : List Char :=
  text.filter fun c => !isBlank c

/-- No blank is left. -/
theorem not_isBlank_of_mem_withoutBlanks {text : List Char} {c : Char}
    (hmem : c ∈ withoutBlanks text) : isBlank c = false := by
  simpa using (List.mem_filter.mp hmem).2

/-! ## Hexadecimal digits

Escapes in quoted texts name characters by hexadecimal numbers.  A digit above nine is
a letter, in either case.  Numbers in smaller bases use fewer of the digits.
-/

def hexDigit? (c : Char) : Option Nat :=
  if '0' ≤ c ∧ c ≤ '9' then some (c.toNat - '0'.toNat)
  else if 'a' ≤ c ∧ c ≤ 'f' then some (c.toNat - 'a'.toNat + 10)
  else if 'A' ≤ c ∧ c ≤ 'F' then some (c.toNat - 'A'.toNat + 10)
  else none

/-- The number that digits stand for in a base; other characters do not count. -/
def valueInBase (base : Nat) (digits : List Char) : Nat :=
  (digits.filterMap hexDigit?).foldl (fun value digit => base * value + digit) 0

def hexValue (digits : List Char) : Nat := valueInBase 16 digits

/-! ## Segments of qualified names

A qualified name is read from its end: what counts is the part behind the last
separator, and whether that part starts with a given word.  Both are functions on
characters, so that a name of any length is handled by the same two list facts.  A text
that is read from its front is cut at a mark instead, which has to be absent before it.
-/

/-- The characters behind the last one that `stops`; all of them when none does. -/
def afterLast (stops : Char → Bool) (text : List Char) : List Char :=
  (text.reverse.takeWhile fun c => !stops c).reverse

/-- The characters up to and including the last one that `stops`. -/
def throughLast (stops : Char → Bool) (text : List Char) : List Char :=
  (text.reverse.dropWhile fun c => !stops c).reverse

/-- Removes `start` from the front of `text` once, when it is there. -/
def withoutStart (start text : List Char) : List Char :=
  (start.isPrefixOf? text).getD text

/-- Cutting at the last stop loses nothing. -/
theorem throughLast_append_afterLast (stops : Char → Bool) (text : List Char) :
    throughLast stops text ++ afterLast stops text = text := by
  rw [throughLast, afterLast, ← List.reverse_append, List.takeWhile_append_dropWhile,
    List.reverse_reverse]

/-- What stands through the last stop ends in it. -/
theorem throughLast_eq_nil_or (stops : Char → Bool) (text : List Char) :
    throughLast stops text = [] ∨
      ∃ front stop, throughLast stops text = front ++ [stop] ∧ stops stop = true := by
  rw [throughLast]
  cases hrest : text.reverse.dropWhile fun c => !stops c with
  | nil => exact Or.inl rfl
  | cons stop rest =>
      right
      have hhead := List.head?_dropWhile_not (fun c => !stops c) text.reverse
      rw [hrest] at hhead
      exact ⟨rest.reverse, stop, List.reverse_cons, by simpa using hhead⟩

/-- No character behind the last stop is a stop. -/
theorem not_stops_of_mem_afterLast {stops : Char → Bool} {text : List Char} {c : Char}
    (hmem : c ∈ afterLast stops text) : stops c = false := by
  have hall := List.all_eq_true.mp
    (List.all_takeWhile (p := fun c => !stops c) (l := text.reverse)) c
  simpa using hall (List.mem_reverse.mp hmem)

/-- A text without a stop is its own last segment. -/
theorem afterLast_eq_self {stops : Char → Bool} {text : List Char}
    (hfree : ∀ c ∈ text, stops c = false) : afterLast stops text = text := by
  have htake : (text.reverse ++ []).takeWhile (fun c => !stops c) = text.reverse ++ [] :=
    List.takeWhile_append_of_pos fun c hc => by simp [hfree c (List.mem_reverse.mp hc)]
  rw [List.append_nil] at htake
  rw [afterLast, htake, List.reverse_reverse]

/-- The last segment is what stands behind a stop and has none itself. -/
theorem afterLast_append_cons_of_free {stops : Char → Bool} {stop : Char}
    (hstop : stops stop = true) (front : List Char) {back : List Char}
    (hfree : ∀ c ∈ back, stops c = false) : afterLast stops (front ++ stop :: back) = back := by
  have hself := congrArg List.reverse (afterLast_eq_self hfree)
  rw [afterLast, List.reverse_reverse] at hself
  rw [afterLast, List.reverse_append, List.reverse_cons, List.append_assoc,
    List.takeWhile_append, hself, if_pos rfl, List.singleton_append,
    List.takeWhile_cons_of_neg (by simp [hstop]), List.append_nil, List.reverse_reverse]

@[simp]
theorem withoutStart_append (start text : List Char) :
    withoutStart start (start ++ text) = text := by
  have hfound : start.isPrefixOf? (start ++ text) = some text := by
    induction start with
    | nil => rfl
    | cons c start ih =>
        change (if c == c then start.isPrefixOf? (start ++ text) else none) = some text
        rw [if_pos (beq_self_eq_true c), ih]
  simp [withoutStart, hfound]

/-! ## Cutting at a mark -/

variable {mark : Char} {left right leftRest rightRest : List Char}

/-- Only one front without the mark can stand before it. -/
theorem append_cons_inj (hleft : mark ∉ left) (hright : mark ∉ right)
    (heq : left ++ mark :: leftRest = right ++ mark :: rightRest) :
    left = right ∧ leftRest = rightRest := by
  induction left generalizing right with
  | nil =>
      cases right with
      | nil => exact ⟨rfl, List.tail_eq_of_cons_eq heq⟩
      | cons c right =>
          have hmark : mark = c := List.head_eq_of_cons_eq heq
          exact absurd (hmark ▸ List.mem_cons_self) hright
  | cons c left ih =>
      cases right with
      | nil =>
          have hmark : c = mark := List.head_eq_of_cons_eq heq
          exact absurd (hmark ▸ List.mem_cons_self) hleft
      | cons d right =>
          have hhead : c = d := List.head_eq_of_cons_eq heq
          have htail := ih (fun hmem => hleft (List.mem_cons_of_mem c hmem))
            (fun hmem => hright (List.mem_cons_of_mem d hmem)) (List.tail_eq_of_cons_eq heq)
          rw [hhead, htail.1]
          exact ⟨rfl, htail.2⟩

/-- Only one rest without the mark can stand behind it. -/
theorem append_cons_inj_of_rest (hleft : mark ∉ leftRest) (hright : mark ∉ rightRest)
    (heq : left ++ mark :: leftRest = right ++ mark :: rightRest) :
    left = right ∧ leftRest = rightRest := by
  have hreverse := congrArg List.reverse heq
  simp only [List.reverse_append, List.reverse_cons, List.append_assoc, List.singleton_append]
    at hreverse
  have hcut := append_cons_inj (by simpa using hleft) (by simpa using hright) hreverse
  exact ⟨List.reverse_inj.mp hcut.2, List.reverse_inj.mp hcut.1⟩

end FieldWiring.Text
