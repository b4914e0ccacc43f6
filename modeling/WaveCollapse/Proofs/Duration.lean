import Mathlib.Data.List.TakeDrop
import Mathlib.Data.List.TakeWhile
import WaveCollapse.Decimal
import WaveCollapse.Duration

/-! # Durations and their texts

The text of a duration is a list of numbers with units, without those of which there are none.
The reader takes off one number with its unit (`readWithin_part`) and adds it to what it has.
Division with remainder has made the numbers, so they add up to the duration (`total_seconds_parts`,
`total_nanos_parts`), and no sum on the way is larger: the reader ends with the duration that was
written (`ofText?_text`).
-/

namespace WaveCollapse

/-- Elements that weigh nothing need not be counted. -/
theorem total_map_filter {α : Type} (weight : α → Nat) (p : α → Bool) {l : List α}
    (h : ∀ a ∈ l, p a = false → weight a = 0) :
    total ((l.filter p).map weight) = total (l.map weight) := by
  induction l with
  | nil => rfl
  | cons a l ih =>
    have hl := ih fun b hb => h b (List.mem_cons_of_mem a hb)
    by_cases ha : p a = true
    · simp [List.filter_cons_of_pos ha, hl]
    · have hzero := h a List.mem_cons_self (by simpa using ha)
      simp [List.filter_cons_of_neg ha, hl, hzero]

namespace Duration

/-- Seconds that fit 64 bits, and less than a second of nanoseconds. -/
structure Valid (d : Duration) : Prop where
  seconds : d.seconds < twoTo 64
  nanos : d.nanos < nanosPerSecond

/-! ## Parts -/

namespace Part

/-- The seconds of a part with a large unit. -/
def seconds (p : Part) : Nat :=
  match p.unit with
  | .large k => p.count * k
  | .small _ => 0

/-- The nanoseconds of a part with a small unit. -/
def nanos (p : Part) : Nat :=
  match p.unit with
  | .large _ => 0
  | .small k => p.count * k

theorem seconds_large (n : Nat) (name : String) (k : Nat) :
    seconds ⟨n, name, .large k⟩ = n * k := rfl

theorem seconds_small (n : Nat) (name : String) (k : Nat) :
    seconds ⟨n, name, .small k⟩ = 0 := rfl

theorem nanos_large (n : Nat) (name : String) (k : Nat) : nanos ⟨n, name, .large k⟩ = 0 := rfl

theorem nanos_small (n : Nat) (name : String) (k : Nat) :
    nanos ⟨n, name, .small k⟩ = n * k := rfl

/-- The name is one of the unit. -/
structure Named (p : Part) : Prop where
  unit : unitOf? p.name = some p.unit
  nonempty : p.name.toList ≠ []
  letters : ∀ c ∈ p.name.toList, inUnit c = true

theorem Named.plural {name : String} {u : TimeUnit} {n : Nat} (one : Named ⟨n, name, u⟩)
    (more : Named ⟨n, name ++ "s", u⟩) : Named ⟨n, Duration.plural name n, u⟩ := by
  unfold Duration.plural
  split
  · exact one
  · exact more

end Part

theorem named_of_mem_parts {d : Duration} {p : Part} (hp : p ∈ d.parts) : p.Named := by
  have hname : ∀ (n : Nat) (name : String) (u : TimeUnit), (unitOf? name = some u ∧
      name.toList ≠ [] ∧ name.toList.all inUnit = true) → Part.Named ⟨n, name, u⟩ :=
    fun _ _ _ h => ⟨h.1, h.2.1, List.all_eq_true.mp h.2.2⟩
  simp only [parts, List.mem_cons, List.not_mem_nil, or_false] at hp
  rcases hp with rfl | rfl | rfl | rfl | rfl | rfl | rfl | rfl | rfl
  · exact .plural (hname _ _ _ (by decide)) (hname _ _ _ (by decide))
  · exact .plural (hname _ _ _ (by decide)) (hname _ _ _ (by decide))
  · exact .plural (hname _ _ _ (by decide)) (hname _ _ _ (by decide))
  all_goals exact hname _ _ _ (by decide)

/-- The seconds of the parts are those of the duration. -/
theorem total_seconds_parts (d : Duration) : total (d.parts.map Part.seconds) = d.seconds := by
  unfold parts
  -- by equations: to unfold products with such factors is to count them out
  simp -implicitDefEqProofs only [List.map_cons, List.map_nil, total_cons, total_nil,
    Part.seconds_large, Part.seconds_small]
  unfold year month day
  omega

theorem total_nanos_parts (d : Duration) : total (d.parts.map Part.nanos) = d.nanos := by
  unfold parts
  simp -implicitDefEqProofs only [List.map_cons, List.map_nil, total_cons, total_nil,
    Part.nanos_large, Part.nanos_small]
  omega

theorem total_written (d : Duration) : total (d.written.map Part.seconds) = d.seconds ∧
    total (d.written.map Part.nanos) = d.nanos := by
  have hzero : ∀ p : Part, decide (p.count ≠ 0) = false → p.seconds = 0 ∧ p.nanos = 0 := by
    intro p hp
    have hcount : p.count = 0 := by simpa using hp
    unfold Part.seconds Part.nanos
    rw [hcount]
    cases p.unit <;> simp
  unfold written
  rw [total_map_filter _ _ fun p _ hp => (hzero p hp).1,
    total_map_filter _ _ fun p _ hp => (hzero p hp).2]
  exact ⟨total_seconds_parts d, total_nanos_parts d⟩

/-! ## Adding parts -/

theorem within64_eq_some {n : Nat} (h : n < twoTo 64) : within64 n = some n := if_pos h

theorem plus_eq_some {d : Duration} {seconds nanos : Nat}
    (hseconds : d.seconds + seconds < twoTo 64) (hnanos : d.nanos + nanos < nanosPerSecond) :
    d.plus seconds nanos = some ⟨d.seconds + seconds, d.nanos + nanos⟩ := by
  have hfits : d.nanos + nanos < twoTo 64 := Nat.lt_trans hnanos (by decide)
  have hcarry : (d.nanos + nanos) / nanosPerSecond = 0 := Nat.div_eq_of_lt hnanos
  unfold plus
  rw [within64_eq_some hfits, Option.bind_eq_bind, Option.bind_some, hcarry, Nat.add_zero,
    within64_eq_some hseconds, Nat.mod_eq_of_lt hnanos]
  rfl

theorem plusUnits_part {d : Duration} {p : Part} (hseconds : d.seconds + p.seconds < twoTo 64)
    (hnanos : d.nanos + p.nanos < nanosPerSecond) : d.plusUnits p.count none p.unit =
      some ⟨d.seconds + p.seconds, d.nanos + p.nanos⟩ := by
  unfold Part.seconds Part.nanos plusUnits at *
  cases hunit : p.unit with
  | large k =>
    simp only [hunit] at hseconds hnanos ⊢
    rw [within64_eq_some (by omega), Option.bind_eq_bind, Option.bind_some,
      plus_eq_some hseconds hnanos]
    rfl
  | small k =>
    simp only [hunit] at hseconds hnanos ⊢
    have hfits : p.count * k < twoTo 64 := by
      have hsecond : nanosPerSecond < twoTo 64 := by decide
      omega
    rw [within64_eq_some hfits, Option.bind_eq_bind, Option.bind_some,
      plus_eq_some hseconds hnanos]
    rfl

/-- Parts whose sum fits are added one after the other. -/
theorem foldlM_plusUnits {ps : List Part} {d : Duration}
    (hseconds : d.seconds + total (ps.map Part.seconds) < twoTo 64)
    (hnanos : d.nanos + total (ps.map Part.nanos) < nanosPerSecond) :
    ps.foldlM (fun d p => d.plusUnits p.count none p.unit) d =
      some ⟨d.seconds + total (ps.map Part.seconds), d.nanos + total (ps.map Part.nanos)⟩ := by
  induction ps generalizing d with
  | nil => rfl
  | cons p ps ih =>
    simp only [List.map_cons, total_cons] at hseconds hnanos ⊢
    rw [List.foldlM_cons, plusUnits_part (by omega) (by omega), Option.bind_eq_bind,
      Option.bind_some, ih (by simp only; omega) (by simp only; omega)]
    simp only [Nat.add_assoc]

/-- The written parts of a duration add up to it. -/
theorem foldlM_written {d : Duration} (hd : d.Valid) :
    d.written.foldlM (fun d p => d.plusUnits p.count none p.unit) zero = some d := by
  obtain ⟨hseconds, hnanos⟩ := total_written d
  have hsum := @foldlM_plusUnits d.written zero
  simp only [hseconds, hnanos, zero, Nat.zero_add] at hsum
  exact hsum hd.seconds hd.nanos

/-! ## Reading parts -/

/-- No digit is mistaken for something else. -/
theorem digit_classes {c : Char} (hc : c.isDigit = true) :
    inUnit c = false ∧ Text.isBlank c = false ∧ c ≠ '.' := by
  have hten : ∀ n < 10, inUnit (Char.ofNat (48 + n)) = false ∧
      Text.isBlank (Char.ofNat (48 + n)) = false ∧ Char.ofNat (48 + n) ≠ '.' := by decide
  simp only [Char.isDigit, Bool.and_eq_true, decide_eq_true_eq] at hc
  have hlow : 48 ≤ c.toNat := hc.1
  have hhigh : c.toNat ≤ 57 := hc.2
  have hn := hten (c.toNat - 48) (by omega)
  rw [Nat.add_sub_cancel' hlow, Char.ofNat_toNat] at hn
  exact hn

/-- The digits of a number spell it. -/
theorem quantity?_toDigits {n : Nat} (hn : n < twoTo 64) :
    quantity? (Nat.toDigits 10 n) = some (n, none) := by
  have hdigit := all_isDigit_toDigits n
  have hpoint : ∀ c ∈ Nat.toDigits 10 n, decide (c ≠ '.') = true := by
    intro c hc
    exact decide_eq_true (digit_classes (hdigit c hc)).2.2
  have hspan : (Nat.toDigits 10 n).span (· ≠ '.') = (Nat.toDigits 10 n, []) := by
    rw [List.span_eq_takeWhile_dropWhile, List.takeWhile_eq_self_iff.mpr hpoint,
      List.dropWhile_eq_nil_iff.mpr hpoint]
  have hnumber : number? (Nat.toDigits 10 n) = some n := by
    unfold number?
    rw [if_pos (List.all_eq_true.mpr hdigit), foldl_toDigits, within64_eq_some hn]
  unfold quantity?
  rw [hspan]
  split
  · next h => exact absurd (congrArg Prod.fst h) Nat.toDigits_ne_nil
  · next h =>
    cases h
    rw [hnumber]
    rfl
  · next h => cases congrArg Prod.snd h

/-- What follows a part is a blank, if anything. -/
def Ends (rest : List Char) : Prop := ∀ c ∈ rest.head?, c = ' '

theorem ends_nil : Ends [] := by
  intro c hc
  cases hc

theorem Ends.unit {rest : List Char} (h : Ends rest) :
    rest.takeWhile inUnit = [] ∧ rest.dropWhile inUnit = rest ∧
      (rest.head?.any fun c => !c.isDigit && !Text.isBlank c) = false := by
  cases rest with
  | nil => exact ⟨rfl, rfl, rfl⟩
  | cons c rest =>
    cases h c rfl
    exact ⟨rfl, rfl, rfl⟩

/-- The digits in front of a unit are split off. -/
theorem beforeUnit_digits {ds rest : List Char} (hdigit : ∀ c ∈ ds, c.isDigit = true)
    (hrest : ∃ c ∈ rest.head?, inUnit c = true) : beforeUnit (ds ++ rest) = (ds, rest) := by
  obtain ⟨c, hc, hunit⟩ := hrest
  obtain ⟨tail, rfl⟩ := List.head?_eq_some_iff.mp hc
  have hout : ∀ c ∈ ds, (!inUnit c) = true := fun c hc => by simp [digit_classes (hdigit c hc)]
  have hshown : ∀ c ∈ ds, (!Text.isBlank c) = true :=
    fun c hc => by simp [digit_classes (hdigit c hc)]
  unfold beforeUnit
  rw [List.takeWhile_append_of_pos hout, List.dropWhile_append_of_pos hout]
  simp [hunit, List.filter_eq_self.mpr hshown]

theorem text_of_part (p : Part) : p.text.toList = Nat.toDigits 10 p.count ++ p.name.toList := by
  unfold Part.text
  rw [String.toList_append, toList_toString]
  rfl

/-- The reader takes off a part and adds it. -/
theorem readWithin_part {p : Part} (hp : p.Named) (hcount : p.count < twoTo 64) {rest : List Char}
    (hrest : Ends rest) (fuel : Nat) (d : Duration) :
    readWithin (fuel + 1) d (p.text.toList ++ rest) =
      (d.plusUnits p.count none p.unit).bind fun d => readWithin fuel d rest := by
  have hdigit := all_isDigit_toDigits p.count
  have hbefore : beforeUnit (Nat.toDigits 10 p.count ++ (p.name.toList ++ rest)) =
      (Nat.toDigits 10 p.count, p.name.toList ++ rest) := by
    refine beforeUnit_digits hdigit ?_
    obtain ⟨c, name, hname⟩ := List.exists_cons_of_ne_nil hp.nonempty
    rw [hname]
    exact ⟨c, rfl, hp.letters c (hname ▸ List.mem_cons_self)⟩
  have hquantity := quantity?_toDigits hcount
  obtain ⟨hnone, hleft, hgo⟩ := hrest.unit
  rw [text_of_part, List.append_assoc]
  generalize Nat.toDigits 10 p.count = ds at hdigit hbefore hquantity
  cases ds with
  | nil => cases hquantity
  | cons c ds =>
    have hc : c.isDigit = true := hdigit c List.mem_cons_self
    conv =>
      lhs
      unfold readWithin
    rw [List.cons_append, List.dropWhile_cons_of_neg (by simp [digit_classes hc])]
    dsimp only
    rw [List.cons_append] at hbefore
    rw [hc, hbefore]
    dsimp only
    rw [hquantity, List.takeWhile_append_of_pos hp.letters, List.dropWhile_append_of_pos hp.letters,
      hnone, hleft, List.append_nil, String.ofList_toList, hp.unit, hgo]
    rfl

/-- A blank in front does not count. -/
theorem readWithin_blank (fuel : Nat) (d : Duration) (cs : List Char) :
    readWithin fuel d (' ' :: cs) = readWithin fuel d cs := by
  cases fuel with
  | zero => rfl
  | succ fuel =>
    unfold readWithin
    rw [List.dropWhile_cons_of_pos (by decide)]

/-- The text of some parts begins with the first of them and goes on with that of the others. -/
theorem intercalate_parts (p : Part) (ps : List Part) : ∃ rest,
    [' '].intercalate ((p :: ps).map (·.text.toList)) = p.text.toList ++ rest ∧ Ends rest ∧
      ([' '].intercalate (ps.map (·.text.toList))).length ≤ rest.length ∧
      ∀ fuel d, readWithin fuel d rest =
        readWithin fuel d ([' '].intercalate (ps.map (·.text.toList))) := by
  cases ps with
  | nil =>
    refine ⟨[], ?_, ends_nil, Nat.le_refl 0, fun fuel d => rfl⟩
    rw [List.append_nil]
    exact List.intercalate_singleton
  | cons q ps =>
    refine ⟨' ' :: [' '].intercalate ((q :: ps).map (·.text.toList)), ?_, ?_, Nat.le_succ _,
      fun fuel d => readWithin_blank fuel d _⟩
    · rw [List.map_cons, List.map_cons, List.intercalate_cons_cons, List.append_assoc]
      rfl
    · intro c hc
      exact (Option.some.inj hc).symm

/-- The reader takes off all parts of a list. -/
theorem readWithin_parts {ps : List Part} (hps : ∀ p ∈ ps, p.Named ∧ p.count < twoTo 64)
    {fuel : Nat} (hfuel : ps.length < fuel) (d : Duration) :
    readWithin fuel d ([' '].intercalate (ps.map (·.text.toList))) =
      ps.foldlM (fun d p => d.plusUnits p.count none p.unit) d := by
  induction ps generalizing fuel d with
  | nil =>
    obtain ⟨fuel, rfl⟩ := Nat.exists_eq_succ_of_ne_zero (Nat.ne_of_gt hfuel)
    rfl
  | cons p ps ih =>
    obtain ⟨fuel, rfl⟩ := Nat.exists_eq_succ_of_ne_zero (Nat.ne_of_gt (Nat.zero_lt_of_lt hfuel))
    obtain ⟨hp, hcount⟩ := hps p List.mem_cons_self
    obtain ⟨rest, htext, hends, -, hread⟩ := intercalate_parts p ps
    rw [htext, readWithin_part hp hcount hends, List.foldlM_cons, Option.bind_eq_bind]
    refine congrArg _ (funext fun d => ?_)
    rw [hread, ih (fun q hq => hps q (List.mem_cons_of_mem p hq)) (Nat.lt_of_succ_lt_succ hfuel)]

/-- There is at least a character for every part. -/
theorem length_le_intercalate (ps : List Part) :
    ps.length ≤ ([' '].intercalate (ps.map (·.text.toList))).length := by
  induction ps with
  | nil => exact Nat.zero_le _
  | cons p ps ih =>
    obtain ⟨rest, htext, -, hrest, -⟩ := intercalate_parts p ps
    have hdigits := List.length_pos_iff.mpr (Nat.toDigits_ne_nil (b := 10) (n := p.count))
    rw [htext, text_of_part, List.length_append, List.length_append, List.length_cons]
    omega

theorem count_lt_of_mem_parts {d : Duration} (hd : d.Valid) {p : Part} (hp : p ∈ d.parts) :
    p.count < twoTo 64 := by
  have hnanos : d.nanos < twoTo 64 := Nat.lt_trans hd.nanos (by decide)
  have hseconds := hd.seconds
  simp only [parts, List.mem_cons, List.not_mem_nil, or_false] at hp
  rcases hp with rfl | rfl | rfl | rfl | rfl | rfl | rfl | rfl | rfl
  all_goals
    dsimp only [year, month, day]
    omega

/-- A text of parts is neither blank nor the lone zero that needs no unit. -/
theorem intercalate_ne_zero {p : Part} (hp : p.Named) (ps : List Part) :
    [' '].intercalate ((p :: ps).map (·.text.toList)) ≠ ['0'] ∧
      ([' '].intercalate ((p :: ps).map (·.text.toList))).all Text.isBlank = false := by
  obtain ⟨rest, htext, -⟩ := intercalate_parts p ps
  rw [htext, text_of_part, List.append_assoc]
  have hdigit := all_isDigit_toDigits p.count
  obtain ⟨c, ds, hds⟩ := List.exists_cons_of_ne_nil (Nat.toDigits_ne_nil (b := 10) (n := p.count))
  obtain ⟨u, name, hname⟩ := List.exists_cons_of_ne_nil hp.nonempty
  rw [hds] at hdigit
  rw [hds, hname]
  refine ⟨fun h => ?_, ?_⟩
  · have hlength := congrArg List.length h
    simp at hlength
  · simp [digit_classes (hdigit c List.mem_cons_self)]

/-- **The text of a duration spells it.** -/
theorem ofText?_text {d : Duration} (hd : d.Valid) : ofText? d.text = some d := by
  have hps : ∀ p ∈ d.written, p.Named ∧ p.count < twoTo 64 := by
    intro p hp
    have hp := (List.mem_filter.mp hp).1
    exact ⟨named_of_mem_parts hp, count_lt_of_mem_parts hd hp⟩
  have hsum := foldlM_written hd
  unfold text
  cases hwritten : d.written with
  | nil =>
    rw [hwritten] at hsum
    cases hsum
    decide
  | cons p ps =>
    rw [hwritten] at hsum hps
    have htext : (" ".intercalate ((p :: ps).map Part.text)).toList =
        [' '].intercalate ((p :: ps).map (·.text.toList)) := by
      rw [String.toList_intercalate, List.map_map]
      rfl
    obtain ⟨hlone, hblank⟩ := intercalate_ne_zero (hps p List.mem_cons_self).1 ps
    have hne : " ".intercalate ((p :: ps).map Part.text) ≠ "0" := by
      intro h
      exact hlone (htext.symm.trans (congrArg String.toList h))
    have hlength := length_le_intercalate (p :: ps)
    rw [← htext, String.length_toList] at hlength
    unfold ofText?
    rw [List.isEmpty_cons, if_neg Bool.false_ne_true, if_neg hne, htext, hblank,
      if_neg Bool.false_ne_true, readWithin_parts hps (Nat.lt_succ_of_le hlength), hsum]

/-! ## What is read -/

/-- A sum is a duration, whatever is added. -/
theorem valid_of_plus {d e : Duration} {seconds nanos : Nat} (h : d.plus seconds nanos = some e) :
    e.Valid := by
  unfold plus within64 at h
  simp only [Option.bind_eq_bind, Option.bind_eq_some_iff] at h
  obtain ⟨carried, -, sum, hsum, he⟩ := h
  cases he
  split at hsum
  · next hfits =>
    cases hsum
    exact ⟨hfits, Nat.mod_lt _ (by decide)⟩
  · cases hsum

theorem valid_of_plusUnits {d e : Duration} {whole : Nat} {fraction : Option Fraction}
    {unit : TimeUnit} (h : d.plusUnits whole fraction unit = some e) : e.Valid := by
  cases unit with
  | small nanos =>
    obtain ⟨units, -, h⟩ := Option.bind_eq_some_iff.mp h
    obtain ⟨c, hc, h⟩ := Option.bind_eq_some_iff.mp h
    cases fraction with
    | none =>
      cases h
      exact valid_of_plus hc
    | some f =>
      dsimp only at h
      split at h
      · cases h
      · obtain ⟨part, -, h⟩ := Option.bind_eq_some_iff.mp h
        exact valid_of_plus h
  | large seconds =>
    obtain ⟨units, -, h⟩ := Option.bind_eq_some_iff.mp h
    obtain ⟨c, hc, h⟩ := Option.bind_eq_some_iff.mp h
    cases fraction with
    | none =>
      cases h
      exact valid_of_plus hc
    | some f =>
      dsimp only at h
      split at h
      all_goals
        obtain ⟨part, -, h⟩ := Option.bind_eq_some_iff.mp h
        exact valid_of_plus h

theorem valid_of_readWithin {fuel : Nat} {d e : Duration} {cs : List Char} (hd : d.Valid)
    (h : readWithin fuel d cs = some e) : e.Valid := by
  induction fuel generalizing d cs with
  | zero => cases h
  | succ fuel ih =>
    unfold readWithin at h
    split at h
    · cases h
      exact hd
    · split at h
      · cases h
      · dsimp only at h
        obtain ⟨q, -, h⟩ := Option.bind_eq_some_iff.mp h
        obtain ⟨unit, -, h⟩ := Option.bind_eq_some_iff.mp h
        split at h
        · cases h
        · obtain ⟨c, hc, h⟩ := Option.bind_eq_some_iff.mp h
          exact ih (valid_of_plusUnits hc) h

/-- Only durations are read. -/
theorem valid_of_ofText? {s : String} {d : Duration} (h : ofText? s = some d) : d.Valid := by
  have hzero : zero.Valid := ⟨by decide, by decide⟩
  unfold ofText? at h
  split at h
  · cases h
    exact hzero
  · split at h
    · cases h
    · exact valid_of_readWithin hzero h

end Duration
end WaveCollapse
