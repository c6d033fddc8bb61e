import FieldWiring.Declaration

/-!
# What arguments say

Arguments are read from the left and the first one that sets no known key to a text is
reported.  Here the two outcomes are described by the tokens alone: as a list of settings
with commas behind them, and as such a list with a faulty argument behind it.
-/

namespace FieldWiring

open Source (Token)

/-! ## Settings -/

/-- The tokens of settings, each with the comma that ends it. -/
def settingTokens (settings : List (String × String)) : List Token :=
  settings.flatMap fun setting => [.word setting.1, .equals, .text setting.2, .comma]

@[simp]
theorem settingTokens_nil : settingTokens [] = [] := rfl

@[simp]
theorem settingTokens_cons (key value : String) (settings : List (String × String)) :
    settingTokens ((key, value) :: settings) =
      .word key :: .equals :: .text value :: .comma :: settingTokens settings := rfl

/-- The tokens set known keys to texts, and the last comma may be left out. -/
structure SetsKeys (known : List String) (tokens : List Token)
    (settings : List (String × String)) : Prop where
  known : ∀ setting ∈ settings, setting.1 ∈ known
  tokens : tokens = settingTokens settings ∨ tokens ++ [.comma] = settingTokens settings

/-! ## Faults -/

def rootTokens : Bool → List Token
  | true => [.separator]
  | false => []

def stepTokens (words : List String) : List Token :=
  words.flatMap fun word => [.separator, .word word]

def pathTokens (isRooted : Bool) (first : String) (more : List String) : List Token :=
  rootTokens isRooted ++ .word first :: stepTokens more

theorem pathTokens_nil_append (isRooted : Bool) (first : String) (rest : List Token) :
    pathTokens isRooted first [] ++ rest = rootTokens isRooted ++ .word first :: rest := by
  simp [pathTokens, stepTokens]

def beginsWithLiteral : List Token → Bool
  | .text _ :: _ | .number :: _ | .literal :: _ | .minus :: .number :: _ => true
  | _ => false

/-- What is wrong with the argument that tokens begin with. -/
inductive ArgumentFault (known : List String) (unknown : DeclarationError) :
    List Token → DeclarationError → Prop where
  /-- The key is a path, but not a known word alone. -/
  | unknownKey {isRooted : Bool} {first : String} {more : List String} {rest : List Token}
      (hkey : isRooted = true ∨ more ≠ [] ∨ first ∉ known)
      (hrest : rest.head? ≠ some .separator) :
      ArgumentFault known unknown (pathTokens isRooted first more ++ rest) unknown
  /-- The path is not continued behind a separator. -/
  | pathEnd {isRooted : Bool} {first : String} {more : List String} :
      ArgumentFault known unknown (pathTokens isRooted first more ++ [.separator]) .endForWord
  | pathBreak {isRooted : Bool} {first : String} {more : List String} {next : Token}
      {rest : List Token} (hnext : ∀ word, next ≠ .word word) :
      ArgumentFault known unknown (pathTokens isRooted first more ++ .separator :: next :: rest)
        .missingWord
  | noKey : ArgumentFault known unknown [.separator] .missingKey
  | literalKey {isRooted : Bool} {rest : List Token} (hrest : beginsWithLiteral rest = true) :
      ArgumentFault known unknown (rootTokens isRooted ++ rest) .literalForKey
  | otherKey {isRooted : Bool} {next : Token} {rest : List Token}
      (hnext : ∀ word, next ≠ .word word) (hliteral : beginsWithLiteral (next :: rest) = false)
      (hroot : isRooted = true ∨ next ≠ .separator) :
      ArgumentFault known unknown (rootTokens isRooted ++ next :: rest) .otherForKey
  /-- A known key is neither set nor continued as a path. -/
  | noEquals {key : String} {rest : List Token} (hkey : key ∈ known)
      (hequals : rest.head? ≠ some .equals) (hpath : rest.head? ≠ some .separator) :
      ArgumentFault known unknown (.word key :: rest) .missingEquals
  | valueEnd {key : String} (hkey : key ∈ known) :
      ArgumentFault known unknown [.word key, .equals] .endForLiteral
  | noText {key : String} {next : Token} {rest : List Token} (hkey : key ∈ known)
      (hnext : ∀ value, next ≠ .text value) :
      ArgumentFault known unknown (.word key :: .equals :: next :: rest) .missingLiteral
  | noComma {key value : String} {next : Token} {rest : List Token} (hkey : key ∈ known)
      (hnext : next ≠ .comma) :
      ArgumentFault known unknown (.word key :: .equals :: .text value :: next :: rest)
        .missingComma

/-- The first argument that does not set a known key to a text is faulty. -/
def FaultyArguments (known : List String) (unknown : DeclarationError) (tokens : List Token)
    (fault : DeclarationError) : Prop :=
  ∃ settings rest, (∀ setting ∈ settings, setting.1 ∈ known) ∧
    tokens = settingTokens settings ++ rest ∧ ArgumentFault known unknown rest fault

variable {known : List String} {unknown fault : DeclarationError} {tokens rest : List Token}
  {settings : List (String × String)} {key first : String} {more : List String} {isRooted : Bool}

/-! ## One argument -/

theorem readArguments_of_unknown (hkey : key ∉ known) :
    readArguments known unknown (.word key :: rest) = .error (pathFault unknown rest) := by
  rw [readArguments.eq_def]
  split <;> simp_all [pathFault]

theorem readArguments_of_known (hkey : key ∈ known)
    (hlast : ∀ value, rest ≠ [.equals, .text value])
    (hmore : ∀ value tail, rest ≠ .equals :: .text value :: .comma :: tail) :
    readArguments known unknown (.word key :: rest) = .error (settingFault unknown rest) := by
  rw [readArguments.eq_def]
  split <;> simp_all

/-- Tokens that begin with no word are refused for their key. -/
theorem readArguments_of_not_word (hempty : tokens ≠ [])
    (hword : ∀ key rest, tokens ≠ .word key :: rest) :
    readArguments known unknown tokens = .error (keyFault unknown tokens) := by
  rw [readArguments.eq_def]
  split <;> simp_all

theorem readArguments_cons (hkey : key ∈ known) (value : String) :
    readArguments known unknown (.word key :: .equals :: .text value :: .comma :: rest) =
      (readArguments known unknown rest).map ((key, value) :: ·) := by
  rw [readArguments, if_pos hkey]

theorem readArguments_last (hkey : key ∈ known) (value : String) :
    readArguments known unknown [.word key, .equals, .text value] = .ok [(key, value)] := by
  rw [readArguments, if_pos hkey]

/-- Settings at the front are read, whatever follows. -/
theorem readArguments_settingTokens_append (hknown : ∀ setting ∈ settings, setting.1 ∈ known) :
    readArguments known unknown (settingTokens settings ++ rest) =
      (readArguments known unknown rest).map (settings ++ ·) := by
  induction settings with
  | nil =>
      rw [settingTokens_nil, List.nil_append]
      cases readArguments known unknown rest <;> rfl
  | cons head tail ih =>
      obtain ⟨hhead, htail⟩ := List.forall_mem_cons.mp hknown
      obtain ⟨key, value⟩ := head
      rw [settingTokens_cons, List.cons_append, List.cons_append, List.cons_append,
        List.cons_append, readArguments_cons hhead, ih htail]
      cases readArguments known unknown rest <;> rfl

/-! ## Faulty arguments -/

/-- What is found wrong with a path is wrong with it, however far it has been read. -/
theorem argumentFault_pathFault
    (hkey : isRooted = true ∨ more ≠ [] ∨ first ∉ known ∨ rest.head? = some .separator) :
    ArgumentFault known unknown (pathTokens isRooted first more ++ rest)
      (pathFault unknown rest) := by
  fun_induction pathFault unknown rest generalizing more with
  | case1 word rest ih =>
      have hstep : pathTokens isRooted first more ++ .separator :: .word word :: rest =
          pathTokens isRooted first (more ++ [word]) ++ rest := by
        simp [pathTokens, stepTokens]
      rw [hstep]
      apply ih
      right
      left
      simp
  | case2 => exact .pathEnd
  | case3 rest hword hend =>
      match rest with
      | [] => exact absurd rfl hend
      | next :: rest =>
          apply ArgumentFault.pathBreak
          intro word heq
          exact hword word rest (by rw [heq])
  | case4 rest hword hend hseparator =>
      have hrest : rest.head? ≠ some .separator := by
        intro hhead
        match rest with
        | .separator :: rest => exact hseparator rest rfl
      apply ArgumentFault.unknownKey _ hrest
      simpa [hrest] using hkey

theorem head?_ne_some {next : Token} (hrest : ∀ tail, rest ≠ next :: tail) :
    rest.head? ≠ some next := by
  intro hhead
  obtain ⟨tail, heq⟩ := List.head?_eq_some_iff.mp hhead
  exact hrest tail heq

/-- A known key that is not set to a text is refused for what stands behind it. -/
theorem argumentFault_settingFault (hkey : key ∈ known)
    (hlast : ∀ value, rest ≠ [.equals, .text value])
    (hmore : ∀ value tail, rest ≠ .equals :: .text value :: .comma :: tail) :
    ArgumentFault known unknown (.word key :: rest) (settingFault unknown rest) := by
  rw [settingFault.eq_def]
  split
  · rename_i value behind
    match behind with
    | [] => exact absurd rfl (hlast value)
    | next :: behind =>
        apply ArgumentFault.noComma hkey
        intro heq
        exact hmore value behind (by rw [heq])
  · exact .valueEnd hkey
  · rename_i behind htext hend
    match behind with
    | [] => exact absurd rfl hend
    | next :: behind =>
        apply ArgumentFault.noText hkey
        intro value heq
        exact htext value behind (by rw [heq])
  · rename_i behind
    change ArgumentFault known unknown (pathTokens false key [] ++ .separator :: behind) _
    exact argumentFault_pathFault (.inr (.inr (.inr rfl)))
  · rename_i hequals hpath
    exact .noEquals hkey (head?_ne_some hequals) (head?_ne_some hpath)

/-- A separator at the front changes nothing about what is wrong behind it. -/
theorem keyFault_cons_separator (hpath : tokens.head? ≠ some .separator) :
    keyFault unknown (.separator :: tokens) = keyFault unknown tokens := by
  match tokens, hpath with
  | [], _ => rfl
  | .separator :: rest, hpath => exact absurd rfl hpath
  | .word _ :: rest, _ | .text _ :: rest, _ | .number :: rest, _ | .literal :: rest, _
  | .equals :: rest, _ | .comma :: rest, _ | .minus :: rest, _ | .other :: rest, _ => rfl

theorem argumentFault_keyFault_rooted
    (hroot : isRooted = true ∨
      tokens ≠ [] ∧ (∀ word rest, tokens ≠ .word word :: rest) ∧ tokens.head? ≠ some .separator) :
    ArgumentFault known unknown (rootTokens isRooted ++ tokens)
      (keyFault unknown (.separator :: tokens)) := by
  rw [keyFault.eq_def]
  dsimp only
  split
  · rename_i word rest
    have hrooted : isRooted = true := hroot.resolve_right fun h => h.2.1 word rest rfl
    rw [← pathTokens_nil_append]
    exact argumentFault_pathFault (.inl hrooted)
  · have hrooted : isRooted = true := hroot.resolve_right fun h => h.1 rfl
    rw [hrooted]
    exact .noKey
  · exact .literalKey rfl
  · exact .literalKey rfl
  · exact .literalKey rfl
  · exact .literalKey rfl
  · rename_i hword hempty htext hnumber hliteral hminus
    match tokens with
    | [] => exact absurd rfl hempty
    | next :: rest =>
        apply ArgumentFault.otherKey
        · intro word heq
          exact hword word rest (by rw [heq])
        · rw [beginsWithLiteral.eq_def]
          split <;> simp_all
        · apply hroot.imp_right
          intro h heq
          exact h.2.2 (by rw [heq]; rfl)

/-- What does not begin with a key is refused for what stands in its place. -/
theorem argumentFault_keyFault (hempty : tokens ≠ [])
    (hword : ∀ key rest, tokens ≠ .word key :: rest) :
    ArgumentFault known unknown tokens (keyFault unknown tokens) := by
  by_cases hpath : tokens.head? = some .separator
  · obtain ⟨rest, heq⟩ := List.head?_eq_some_iff.mp hpath
    rw [heq]
    change ArgumentFault known unknown (rootTokens true ++ rest) _
    exact argumentFault_keyFault_rooted (.inl rfl)
  · rw [← keyFault_cons_separator hpath]
    change ArgumentFault known unknown (rootTokens false ++ tokens) _
    exact argumentFault_keyFault_rooted (.inr ⟨hempty, hword, hpath⟩)

/-- Further parts of a path are passed over. -/
theorem pathFault_stepTokens_append (more : List String) :
    pathFault unknown (stepTokens more ++ rest) = pathFault unknown rest := by
  induction more with
  | nil => rfl
  | cons word more ih => exact ih

theorem pathFault_eq_unknown (hrest : rest.head? ≠ some .separator) :
    pathFault unknown rest = unknown := by
  rw [pathFault.eq_def]
  split
  · exact absurd rfl hrest
  · exact absurd rfl hrest
  · exact absurd rfl hrest
  · rfl

theorem readArguments_pathTokens
    (hkey : isRooted = true ∨ more ≠ [] ∨ first ∉ known ∨ rest.head? = some .separator) :
    readArguments known unknown (pathTokens isRooted first more ++ rest) =
      .error (pathFault unknown rest) := by
  rw [← pathFault_stepTokens_append more]
  cases isRooted with
  | true =>
      change readArguments known unknown
        (.separator :: .word first :: (stepTokens more ++ rest)) = _
      rw [readArguments_of_not_word (by simp) (by simp)]
      rfl
  | false =>
      change readArguments known unknown (.word first :: (stepTokens more ++ rest)) = _
      by_cases hfirst : first ∈ known
      · have hhead : (stepTokens more ++ rest).head? = some .separator := by
          cases more with
          | nil => simpa [hfirst, stepTokens] using hkey
          | cons word more => rfl
        obtain ⟨tail, htail⟩ := List.head?_eq_some_iff.mp hhead
        rw [htail, readArguments_of_known hfirst (by simp) (by simp)]
        rfl
      · exact readArguments_of_unknown hfirst

theorem keyFault_rootTokens_append (hroot : isRooted = true ∨ tokens.head? ≠ some .separator) :
    keyFault unknown (rootTokens isRooted ++ tokens) = keyFault unknown (.separator :: tokens) := by
  cases isRooted with
  | true => rfl
  | false => exact (keyFault_cons_separator (hroot.resolve_left Bool.false_ne_true)).symm

theorem readArguments_of_literalKey (hrest : beginsWithLiteral rest = true) :
    readArguments known unknown (rootTokens isRooted ++ rest) = .error .literalForKey := by
  have hkey : keyFault unknown (.separator :: rest) = .literalForKey ∧
      (∀ word tail, rest ≠ .word word :: tail) ∧ rest ≠ [] ∧ rest.head? ≠ some .separator := by
    match rest, hrest with
    | .text _ :: _, _ | .number :: _, _ | .literal :: _, _ | .minus :: .number :: _, _ =>
        simp [keyFault]
  obtain ⟨hfault, hword, hempty, hseparator⟩ := hkey
  rw [readArguments_of_not_word, keyFault_rootTokens_append (.inr hseparator), hfault]
  · simp [hempty]
  · cases isRooted with
    | true => simp [rootTokens]
    | false => exact hword

theorem readArguments_of_otherKey {next : Token} (hnext : ∀ word, next ≠ .word word)
    (hliteral : beginsWithLiteral (next :: rest) = false)
    (hroot : isRooted = true ∨ next ≠ .separator) :
    readArguments known unknown (rootTokens isRooted ++ next :: rest) = .error .otherForKey := by
  have hfault : keyFault unknown (.separator :: next :: rest) = .otherForKey := by
    rw [keyFault.eq_def]
    dsimp only
    split <;> simp_all [beginsWithLiteral]
  rw [readArguments_of_not_word, keyFault_rootTokens_append (by simpa using hroot), hfault]
  · simp
  · cases isRooted <;> simp [rootTokens, hnext]

/-- A faulty argument at the front is refused with its fault. -/
theorem readArguments_of_argumentFault (hfault : ArgumentFault known unknown tokens fault) :
    readArguments known unknown tokens = .error fault := by
  cases hfault with
  | unknownKey hkey hrest =>
      rw [readArguments_pathTokens, pathFault_eq_unknown hrest]
      exact hkey.imp_right fun h => h.imp_right .inl
  | pathEnd =>
      rw [readArguments_pathTokens (by simp)]
      rfl
  | pathBreak hnext =>
      rw [readArguments_pathTokens (by simp), pathFault] <;> simp [hnext]
  | noKey => rfl
  | literalKey hrest => exact readArguments_of_literalKey hrest
  | otherKey hnext hliteral hroot => exact readArguments_of_otherKey hnext hliteral hroot
  | @noEquals key rest hkey hequals hpath =>
      have hfault : settingFault unknown rest = .missingEquals := by
        rw [settingFault.eq_def]
        split <;> simp_all
      rw [readArguments_of_known hkey, hfault]
      · intro value heq
        rw [heq] at hequals
        exact hequals rfl
      · intro value tail heq
        rw [heq] at hequals
        exact hequals rfl
  | valueEnd hkey =>
      rw [readArguments_of_known hkey (by simp) (by simp)]
      rfl
  | noText hkey hnext =>
      rw [readArguments_of_known hkey (by simp [hnext]) (by simp [hnext]), settingFault] <;>
        simp [hnext]
  | noComma hkey hnext =>
      rw [readArguments_of_known hkey (by simp) (by simp [hnext])]
      rfl

theorem ArgumentFault.faultyArguments (hfault : ArgumentFault known unknown tokens fault) :
    FaultyArguments known unknown tokens fault :=
  ⟨[], tokens, List.forall_mem_nil _, rfl, hfault⟩

/-- A setting in front of a faulty argument changes nothing about its fault. -/
theorem FaultyArguments.cons (hkey : key ∈ known) (value : String)
    (hfaulty : FaultyArguments known unknown rest fault) :
    FaultyArguments known unknown (.word key :: .equals :: .text value :: .comma :: rest)
      fault := by
  obtain ⟨settings, behind, hknown, htokens, hfault⟩ := hfaulty
  refine ⟨(key, value) :: settings, behind, ?_, ?_, hfault⟩
  · exact List.forall_mem_cons.mpr ⟨hkey, hknown⟩
  · rw [htokens]
    rfl

theorem argumentFault_of_unknown (hkey : key ∉ known) :
    ArgumentFault known unknown (.word key :: rest) (pathFault unknown rest) := by
  change ArgumentFault known unknown (pathTokens false key [] ++ rest) _
  exact argumentFault_pathFault (.inr (.inr (.inl hkey)))

/-! ## Whole lists -/

/-- A list of arguments is refused with the fault of its first faulty argument. -/
theorem readArguments_eq_error_iff :
    readArguments known unknown tokens = .error fault ↔
      FaultyArguments known unknown tokens fault := by
  constructor
  · intro hread
    fun_induction readArguments known unknown tokens with
    | case1 => cases hread
    | case2 key value hkey => cases hread
    | case3 key value hkey =>
        cases hread
        exact (argumentFault_of_unknown hkey).faultyArguments
    | case4 key value rest hkey ih =>
        cases hrest : readArguments known unknown rest with
        | ok settings =>
            rw [hrest] at hread
            cases hread
        | error found =>
            rw [hrest] at hread
            cases hread
            exact (ih hrest).cons hkey value
    | case5 key value rest hkey =>
        cases hread
        exact (argumentFault_of_unknown hkey).faultyArguments
    | case6 key rest hlast hmore =>
        cases hread
        apply ArgumentFault.faultyArguments
        by_cases hkey : key ∈ known
        · rw [if_pos hkey]
          exact argumentFault_settingFault hkey hlast hmore
        · rw [if_neg hkey]
          exact argumentFault_of_unknown hkey
    | case7 tokens hempty hlast hmore hword =>
        cases hread
        exact (argumentFault_keyFault hempty hword).faultyArguments
  · intro h
    obtain ⟨settings, rest, hknown, htokens, hfault⟩ := h
    rw [htokens, readArguments_settingTokens_append hknown, readArguments_of_argumentFault hfault]
    rfl

theorem settingTokens_append_singleton (front : List (String × String)) (key value : String) :
    settingTokens (front ++ [(key, value)]) =
      settingTokens front ++ [.word key, .equals, .text value] ++ [.comma] := by
  simp [settingTokens]

theorem SetsKeys.cons (hkey : key ∈ known) (value : String)
    (hsets : SetsKeys known rest settings) :
    SetsKeys known (.word key :: .equals :: .text value :: .comma :: rest)
      ((key, value) :: settings) where
  known := List.forall_mem_cons.mpr ⟨hkey, hsets.known⟩
  tokens := by
    rw [settingTokens_cons, List.cons_append, List.cons_append, List.cons_append, List.cons_append]
    exact hsets.tokens.imp (fun heq => by rw [heq]) (fun heq => by rw [heq])

/-- A list of arguments is read exactly if each of them sets a known key to a text. -/
theorem readArguments_eq_ok_iff :
    readArguments known unknown tokens = .ok settings ↔ SetsKeys known tokens settings := by
  constructor
  · intro hread
    fun_induction readArguments known unknown tokens generalizing settings with
    | case1 =>
        cases hread
        exact ⟨List.forall_mem_nil _, .inl rfl⟩
    | case2 key value hkey =>
        cases hread
        exact ⟨List.forall_mem_singleton.mpr hkey, .inr rfl⟩
    | case4 key value rest hkey ih =>
        cases hrest : readArguments known unknown rest with
        | ok behind =>
            rw [hrest] at hread
            cases hread
            exact (ih hrest).cons hkey value
        | error found =>
            rw [hrest] at hread
            cases hread
    | case3 | case5 | case6 | case7 => cases hread
  · intro hsets
    cases hsets.tokens with
    | inl htokens =>
        rw [htokens, ← List.append_nil (settingTokens settings),
          readArguments_settingTokens_append hsets.known, readArguments, Except.map,
          List.append_nil]
    | inr htokens =>
        rcases List.eq_nil_or_concat settings with hempty | ⟨front, ⟨key, value⟩, heq⟩
        · rw [hempty] at htokens
          cases List.append_eq_nil_iff.mp htokens |>.2
        · rw [List.concat_eq_append] at heq
          rw [heq, settingTokens_append_singleton] at htokens
          have hknown := List.forall_mem_append.mp (heq ▸ hsets.known)
          rw [heq, List.append_cancel_right htokens, readArguments_settingTokens_append hknown.1,
            readArguments_last (hknown.2 _ List.mem_cons_self)]
          rfl

/-! ## The last setting of a key -/

/-- The key was set to this text, and not again. -/
def IsLastSetting (settings : List (String × String)) (key value : String) : Prop :=
  ∃ front back, settings = front ++ (key, value) :: back ∧ ∀ later ∈ back, later.1 ≠ key

/-- A lookup from the end finds the last setting. -/
theorem lastSetting?_eq_some_iff {value : String} :
    lastSetting? settings key = some value ↔ IsLastSetting settings key value := by
  rw [lastSetting?, List.lookup_eq_some_iff]
  constructor
  · intro h
    obtain ⟨front, back, hsplit, hfront⟩ := h
    refine ⟨back.reverse, front.reverse, ?_, ?_⟩
    · simpa using congrArg List.reverse hsplit
    · intro later hmem
      exact (bne_iff_ne.mp (hfront later (List.mem_reverse.mp hmem))).symm
  · intro h
    obtain ⟨front, back, hsplit, hback⟩ := h
    refine ⟨back.reverse, front.reverse, ?_, ?_⟩
    · simpa using congrArg List.reverse hsplit
    · intro later hmem
      exact bne_iff_ne.mpr (hback later (List.mem_reverse.mp hmem)).symm

theorem lastSetting?_eq_none_iff :
    lastSetting? settings key = none ↔ ∀ setting ∈ settings, setting.1 ≠ key := by
  rw [lastSetting?, List.lookup_eq_none_iff]
  simp only [List.mem_reverse, bne_iff_ne]
  exact forall₂_congr fun setting _ => ne_comm

end FieldWiring
