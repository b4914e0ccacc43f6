import WaveCollapse.Decimal
import WaveCollapse.Json.Parser
import WaveCollapse.Json.Printer

/-! # Scanning what was written

The scanner cuts the text of a run of lexemes into the tokens that were written
(`Token.scan_spellAll`), provided that the lexemes are `Readable`: their blanks are blanks, their
strings have content, their numbers are natural numbers, and no number runs on into what follows.
Every character of a string comes back from its escape, control characters through the code unit
that is written for them (`scanText_escape`).
-/

namespace WaveCollapse.Json

/-! ## Digits -/

/-- The digits of a number give back its value. -/
theorem digitsValue?_toString (n : Nat) : digitsValue? (toString n).toList = some n := by
  rw [toList_toString]
  unfold digitsValue?
  have spelled : (!(Nat.toDigits 10 n).isEmpty && (Nat.toDigits 10 n).all Char.isDigit) = true := by
    rw [Bool.and_eq_true]
    refine ⟨?_, List.all_eq_true.mpr (all_isDigit_toDigits n)⟩
    rw [List.isEmpty_eq_false_iff.mpr Nat.toDigits_ne_nil]
    rfl
  rw [if_pos spelled]
  exact congrArg some (foldl_toDigits n)

theorem toNat64?_ofNat {n : Nat} (hn : n < twoTo 64) : (ofNat n).toNat64? = some n := by
  unfold toNat64? ofNat
  dsimp only
  rw [digitsValue?_toString]
  exact if_pos (decide_eq_true hn)

theorem lt_of_toNat64? {j : Json} {n : Nat} (h : j.toNat64? = some n) : n < twoTo 64 := by
  unfold toNat64? at h
  split at h
  · exact of_decide_eq_true (Option.filter_eq_some_iff.mp h).2
  · cases h

/-! ## Numbers -/

/-- What follows a number does not go on with it. -/
def Stops (rest : List Char) : Prop :=
  ∀ c ∈ rest.head?, c.isDigit = false ∧ c ≠ '.' ∧ c ≠ 'e' ∧ c ≠ 'E'

theorem stops_nil : Stops [] := nofun

theorem stops_cons {c : Char} {rest : List Char}
    (hc : c.isDigit = false ∧ c ≠ '.' ∧ c ≠ 'e' ∧ c ≠ 'E') : Stops (c :: rest) := by
  intro d hd
  cases hd
  exact hc

theorem Stops.takeWhile {rest : List Char} (h : Stops rest) :
    rest.takeWhile Char.isDigit = [] ∧ rest.dropWhile Char.isDigit = rest := by
  cases rest with
  | nil => exact ⟨rfl, rfl⟩
  | cons c rest =>
    have hc : c.isDigit = false := (h c rfl).1
    rw [List.takeWhile_cons, List.dropWhile_cons, hc]
    exact ⟨rfl, rfl⟩

/-- The scanner takes a run of digits up to where it stops. -/
theorem scanDigits_append {ds rest : List Char} (some_digit : ds ≠ [])
    (digits : ∀ c ∈ ds, c.isDigit = true) (stops : Stops rest) :
    scanDigits (ds ++ rest) = some (ds, rest) := by
  unfold scanDigits
  rw [List.takeWhile_append_of_pos digits, List.dropWhile_append_of_pos digits,
    stops.takeWhile.1, stops.takeWhile.2, List.append_nil]
  cases ds with
  | nil => exact absurd rfl some_digit
  | cons d ds => rfl

theorem scanInteger_toDigits (n : Nat) {rest : List Char} (stops : Stops rest) :
    scanInteger (Nat.toDigits 10 n ++ rest) = some (Nat.toDigits 10 n, rest) := by
  rcases Nat.eq_zero_or_pos n with rfl | positive
  · rfl
  · unfold scanInteger
    split
    · next zero =>
      -- a positive number does not start with a zero
      have head := congrArg List.head? zero
      rw [head?_toDigits_append] at head
      exact absurd head (head?_toDigits positive)
    · exact scanDigits_append Nat.toDigits_ne_nil (all_isDigit_toDigits n) stops

theorem scanFraction_stops {rest : List Char} (stops : Stops rest) :
    scanFraction rest = some ([], rest) := by
  unfold scanFraction
  split
  · exact absurd rfl (stops '.' rfl).2.1
  · rfl

theorem scanExponent_stops {rest : List Char} (stops : Stops rest) :
    scanExponent rest = some ([], rest) := by
  cases rest with
  | nil => rfl
  | cons c rest =>
    obtain ⟨-, -, lower, upper⟩ := stops c rfl
    unfold scanExponent
    exact if_neg fun h => h.elim lower upper

/-- A natural number is scanned as it is written. -/
theorem scanNumber_toDigits (n : Nat) {rest : List Char} (stops : Stops rest) :
    scanNumber (Nat.toDigits 10 n ++ rest) = some (Nat.toDigits 10 n, rest) := by
  have unsigned : scanUnsigned (Nat.toDigits 10 n ++ rest) = some (Nat.toDigits 10 n, rest) := by
    unfold scanUnsigned
    simp only [scanInteger_toDigits n stops, scanFraction_stops stops, scanExponent_stops stops,
      Option.bind_eq_bind, Option.bind_some, List.append_nil]
    rfl
  unfold scanNumber
  split
  · next minus =>
    have head := congrArg List.head? minus
    rw [head?_toDigits_append] at head
    exact absurd (all_isDigit_toDigits n _ (List.mem_of_head? head)) (by decide)
  · exact unsigned

/-! ## Strings -/

/-- The piece gives the character, whatever comes after it. -/
def Piece.Spells (p : Piece) (c : Char) : Prop :=
  ∀ rest, join (p :: rest) = (join rest).map (c :: ·)

/-- The four hexadecimal digits written for a control character are those of its code. -/
theorem hexDigitsValue?_control : ∀ n < 32,
    hexDigitsValue? ['0', '0', Nat.digitChar (n / 16), Nat.digitChar (n % 16)] = some n := by
  decide

theorem Piece.Spells.unit {c : Char} (control : c.toNat < 32) : (Piece.unit c.toNat).Spells c := by
  intro rest
  rw [join.eq_def (Piece.unit c.toNat :: rest)]
  dsimp only
  rw [if_neg (by omega), if_neg (by omega), Char.ofNat_toNat]

/-- How a character is written: after a backslash, by its code unit, or as it stands. -/
theorem escape_cases (c : Char) :
    (∃ e, escape c = ['\\', e] ∧ unescape? e = some c) ∨
      (c.toNat < 32 ∧ escape c =
        ['\\', 'u', '0', '0', Nat.digitChar (c.toNat / 16), Nat.digitChar (c.toNat % 16)]) ∨
      c ≠ '"' ∧ c ≠ '\\' ∧ ¬ c.toNat < 32 ∧ escape c = [c] := by
  unfold escape
  iterate 7
    split
    · next named => exact .inl ⟨_, rfl, by rw [named]; rfl⟩
  rename_i quote backslash _ _ _ _ _
  split
  · next control => exact .inr (.inl ⟨control, rfl⟩)
  · next printable => exact .inr (.inr ⟨quote, backslash, printable, rfl⟩)

/-- A character comes back from what is written for it. -/
theorem scanText_escape (c : Char) (acc : List Piece) (rest : List Char) :
    ∃ p : Piece, p.Spells c ∧ scanText acc (escape c ++ rest) = scanText (p :: acc) rest := by
  rcases escape_cases c with ⟨e, written, named⟩ | ⟨control, written⟩ |
    ⟨quote, backslash, printable, written⟩
  · refine ⟨.char c, fun _ => rfl, ?_⟩
    rw [written]
    show scanText acc ('\\' :: e :: rest) = _
    rw [scanText.eq_def]
    split
    · next h => cases h
    · next h =>
      cases h
      cases named
    · next h =>
      cases h
      rw [named]
    · next other h =>
      cases h
      exact (other _ _ rfl rfl).elim
    · next h => cases h
  · refine ⟨.unit c.toNat, .unit control, ?_⟩
    rw [written]
    show scanText acc ('\\' :: 'u' :: '0' :: '0' :: _ :: _ :: rest) = _
    rw [scanText, hexDigitsValue?_control _ control]
  · refine ⟨.char c, fun _ => rfl, ?_⟩
    rw [written]
    show scanText acc (c :: rest) = _
    rw [scanText.eq_def]
    split
    · next h => cases h; exact absurd rfl quote
    · next h => cases h; exact absurd rfl backslash
    · next h => cases h; exact absurd rfl backslash
    · next h =>
      cases h
      exact if_neg printable
    · next h => cases h

/-- A string is scanned up to its closing quote, and its pieces give its characters. -/
theorem scanText_escaped (cs : List Char) (acc : List Piece) (rest : List Char) :
    ∃ ps, scanText acc (cs.flatMap escape ++ '"' :: rest) = some (ps.reverse ++ acc, rest) ∧
      Piece.join ps = some cs := by
  induction cs generalizing acc with
  | nil => exact ⟨[], scanText.eq_1 .., rfl⟩
  | cons c cs ih =>
    rw [List.flatMap_cons, List.append_assoc]
    obtain ⟨p, spells, scanned⟩ := scanText_escape c acc (cs.flatMap escape ++ '"' :: rest)
    obtain ⟨ps, hps, joined⟩ := ih (p :: acc)
    refine ⟨p :: ps, ?_, ?_⟩
    · rw [scanned, hps, List.reverse_cons, List.append_assoc, List.singleton_append]
    · rw [spells, joined]
      rfl

/-! ## Tokens -/

namespace Token

/-- The tokens that the scanner reads as they are written: strings with content, and numbers
that are natural numbers. -/
def Plain : Token → Prop
  | text content => content.isSome
  | number spelling => ∃ n : Nat, spelling = toString n
  | _ => True

/-- What may follow the token. -/
def Apart : Token → List Char → Prop
  | number _, rest => Stops rest
  | _, _ => True

/-- Every token starts with a character of its own. -/
theorem Plain.spell_head {t : Token} (ht : t.Plain) :
    ∃ c cs, t.spell = c :: cs ∧ isBlank c = false := by
  cases t with
  | number spelling =>
    obtain ⟨n, rfl⟩ := ht
    have spelled : (number (toString n)).spell = Nat.toDigits 10 n := toList_toString n
    rw [spelled]
    cases hd : Nat.toDigits 10 n with
    | nil => exact absurd hd Nat.toDigits_ne_nil
    | cons d ds =>
      refine ⟨d, ds, rfl, ?_⟩
      have digit := all_isDigit_toDigits n d (hd ▸ List.mem_cons_self)
      unfold isBlank
      refine decide_eq_false ?_
      rintro (rfl | rfl | rfl | rfl) <;> cases digit
  | bool b => cases b <;> exact ⟨_, _, rfl, rfl⟩
  | _ => exact ⟨_, _, rfl, rfl⟩

/-- **The scanner takes a token as it is written.** -/
theorem first?_spell {t : Token} (ht : t.Plain) {rest : List Char} (apart : t.Apart rest) :
    first? (t.spell ++ rest) = some (t, rest) := by
  cases t with
  | text content =>
    obtain ⟨s, rfl⟩ := Option.isSome_iff_exists.mp ht
    show first? ('"' :: s.toList.flatMap escape ++ ['"'] ++ rest) = _
    obtain ⟨ps, hps, joined⟩ := scanText_escaped s.toList [] rest
    rw [List.append_assoc, List.cons_append, List.singleton_append, first?, hps]
    simp only [List.append_nil, List.reverse_reverse, joined, Option.map_some, String.ofList_toList]
  | number spelling =>
    obtain ⟨n, rfl⟩ := ht
    have spelled : (number (toString n)).spell = Nat.toDigits 10 n := toList_toString n
    rw [spelled]
    have scanned := scanNumber_toDigits n apart
    have digit : ∀ c ∈ (Nat.toDigits 10 n ++ rest).head?, c.isDigit = true := by
      rw [head?_toDigits_append]
      exact fun c hc => all_isDigit_toDigits n c (List.mem_of_head? hc)
    generalize hs : Nat.toDigits 10 n ++ rest = s at scanned digit
    unfold first?
    split
    case h_11 =>
      rw [scanned, Nat.toString_eq_ofList_toDigits]
      rfl
    -- no other token starts with a digit
    all_goals exact absurd (digit _ rfl) (by decide)
  | bool b => cases b <;> rfl
  | _ => rfl

end Token

/-! ## Runs of lexemes -/

/-- The characters are blanks. -/
def Blank (cs : List Char) : Prop := ∀ c ∈ cs, Token.isBlank c = true

theorem blank_nil : Blank [] := nofun

/-- The lexemes are told apart in the text that they spell. -/
inductive Readable : List Lexeme → Prop where
  | nil : Readable []
  | cons {blanks : List Char} {t : Token} {ls : List Lexeme}
    (blank : Blank blanks) (plain : t.Plain)
    (apart : t.Apart (spellAll ls)) (rest : Readable ls) : Readable ((blanks, t) :: ls)

theorem spellAll_cons (blanks : List Char) (t : Token) (ls : List Lexeme) :
    spellAll ((blanks, t) :: ls) = blanks ++ (t.spell ++ spellAll ls) := by
  unfold spellAll
  rw [List.flatMap_cons, List.append_assoc]

/-- Every lexeme takes a character. -/
theorem Readable.length_le {ls : List Lexeme} (h : Readable ls) :
    ls.length ≤ (spellAll ls).length := by
  induction h with
  | nil => exact Nat.le_refl 0
  | @cons blanks t ls blank plain apart rest ih =>
    obtain ⟨c, cs, hspell, -⟩ := plain.spell_head
    rw [spellAll_cons, hspell, List.length_append, List.length_append, List.length_cons,
      List.length_cons]
    omega

/-- Enough fuel finds every token of a readable run. -/
theorem Token.scanWithin_spellAll {ls : List Lexeme} (h : Readable ls) {fuel : Nat}
    (enough : ls.length < fuel) (found : List Token) :
    scanWithin fuel found (spellAll ls) = some (found.reverse ++ ls.map (·.2)) := by
  induction h generalizing fuel found with
  | nil =>
    cases fuel with
    | zero => exact absurd enough (Nat.not_lt_zero _)
    | succ fuel =>
      show some found.reverse = _
      rw [List.map_nil, List.append_nil]
  | @cons blanks t ls blank plain apart rest ih =>
    cases fuel with
    | zero => exact absurd enough (Nat.not_lt_zero _)
    | succ fuel =>
      obtain ⟨c, cs, hspell, visible⟩ := plain.spell_head
      have dropped : (spellAll ((blanks, t) :: ls)).dropWhile isBlank =
          c :: (cs ++ spellAll ls) := by
        rw [spellAll_cons, List.dropWhile_append_of_pos blank, hspell, List.cons_append,
          List.dropWhile_cons, visible]
        rfl
      have taken : first? (c :: (cs ++ spellAll ls)) = some (t, spellAll ls) := by
        rw [← List.cons_append, ← hspell]
        exact first?_spell plain apart
      rw [scanWithin, dropped]
      dsimp only
      rw [taken]
      dsimp only
      rw [ih (Nat.lt_of_succ_lt_succ enough), List.reverse_cons, List.append_assoc]
      rfl

/-- **The tokens of a readable run come back from its text.** -/
theorem Token.scan_spellAll {ls : List Lexeme} (h : Readable ls) :
    scan (String.ofList (spellAll ls)) = some (ls.map (·.2)) := by
  unfold scan
  rw [String.toList_ofList, String.length_ofList]
  exact scanWithin_spellAll h (Nat.lt_succ_of_le h.length_le) []

end WaveCollapse.Json
