import WaveCollapse.Proofs.Except
import WaveCollapse.Proofs.Json.Scanning

/-! # Reading what was written

A document that can be written, `Json.Plain`, comes back from its text whatever blanks the writer
puts in (`Plain.parse?_render`).  The lexemes of a value are readable when those after them are and
do not go on with a number (`Plain.legible`), and its tokens take the reader from where a value
may come to where it was completed, inside whatever is still open (`Plain.completes`).  Both are by
induction on the document, with the items of a list and the members of an object one by one.
-/

namespace WaveCollapse.Json

/-- The documents that can be written: every string and every name has content, and the numbers
are natural numbers. -/
inductive Plain : Json → Prop where
  | null : Plain .null
  | bool (b : Bool) : Plain (.bool b)
  | number (n : Nat) : Plain (.ofNat n)
  | text (s : String) : Plain (.ofString s)
  | list {items : List Json} (all : ∀ v ∈ items, Plain v) : Plain (.list items)
  | object {members : List (Option String × Json)} (named : ∀ m ∈ members, m.1.isSome)
    (all : ∀ m ∈ members, Plain m.2) : Plain (.object members)

theorem Plain.ofFields {fields : List (String × Json)} (all : ∀ f ∈ fields, f.2.Plain) :
    (Json.ofFields fields).Plain := by
  refine .object ?_ ?_
  · intro m hm
    obtain ⟨f, -, rfl⟩ := List.mem_map.mp hm
    rfl
  · intro m hm
    obtain ⟨f, hf, rfl⟩ := List.mem_map.mp hm
    exact all f hf

/-! ## The lexemes of a document -/

/-- The writer puts in blanks only. -/
structure Spacing.Blank (sp : Spacing) : Prop where
  lineStart : ∀ depth, Json.Blank (sp.lineStart depth)
  afterColon : Json.Blank sp.afterColon

theorem Spacing.blank_indented : Spacing.indented.Blank := by
  constructor
  · intro depth c hc
    rcases List.mem_cons.mp hc with rfl | hc
    · rfl
    · rw [List.eq_of_mem_replicate hc]
      rfl
  · intro c hc
    cases List.mem_singleton.mp hc
    rfl

/-- What may follow a value: a readable run that does not go on with a number. -/
structure Trailing (ls : List Lexeme) : Prop where
  readable : Readable ls
  stops : Stops (spellAll ls)

theorem trailing_nil : Trailing [] := ⟨.nil, stops_nil⟩

/-- A comma or the end of a list or an object may follow a value. -/
theorem Readable.trailing {blanks : List Char} {t : Token} {ls : List Lexeme} (h : Readable ls)
    (hblank : Blank blanks) (ht : t = .comma ∨ t = .closeBracket ∨ t = .closeBrace) :
    Trailing ((blanks, t) :: ls) := by
  constructor
  · rcases ht with rfl | rfl | rfl <;> exact .cons hblank trivial trivial h
  · rw [spellAll_cons]
    cases blanks with
    | nil => rcases ht with rfl | rfl | rfl <;> exact stops_cons (by decide)
    | cons c blanks =>
      refine stops_cons ?_
      rcases of_decide_eq_true (hblank c List.mem_cons_self) with rfl | rfl | rfl | rfl <;> decide

/-- A name and a colon are read before the value of the member. -/
theorem Readable.member {blanks : List Char} (hblank : Blank blanks) {n : Option String}
    (named : n.isSome) {ls : List Lexeme} (hls : Readable ls) :
    Readable ((blanks, .text n) :: ([], .colon) :: ls) :=
  .cons hblank named trivial (.cons blank_nil trivial trivial hls)

/-- The lexemes of the value are readable before whatever may follow it. -/
def Legible (sp : Spacing) (depth : Nat) (v : Json) : Prop :=
  ∀ blanks, Blank blanks → ∀ ls, Trailing ls → Readable (lexemes sp depth blanks v ++ ls)

section Lexemes
variable {sp : Spacing} {depth : Nat} {ls : List Lexeme}

/-- The items after the first are read before what follows the list. -/
theorem trailing_itemLexemes (hsp : sp.Blank) {vs : List Json}
    (hvs : ∀ v ∈ vs, Legible sp depth v) (hls : Trailing ls) :
    Trailing (itemLexemes sp depth vs ++ ls) := by
  induction vs with
  | nil => exact hls
  | cons v vs ih =>
    have rest := ih fun w hw => hvs w (List.mem_cons_of_mem v hw)
    have item := hvs v List.mem_cons_self _ (hsp.lineStart depth) _ rest
    rw [itemLexemes, List.cons_append, List.cons_append, List.append_assoc]
    exact item.trailing blank_nil (.inl rfl)

/-- The members after the first are read before what follows the object. -/
theorem trailing_memberLexemes (hsp : sp.Blank) {ms : List (Option String × Json)}
    (named : ∀ m ∈ ms, m.1.isSome) (hms : ∀ m ∈ ms, Legible sp depth m.2) (hls : Trailing ls) :
    Trailing (memberLexemes sp depth ms ++ ls) := by
  induction ms with
  | nil => exact hls
  | cons m ms ih =>
    have rest := ih (fun k hk => named k (List.mem_cons_of_mem m hk))
      fun k hk => hms k (List.mem_cons_of_mem m hk)
    have value := hms m List.mem_cons_self _ hsp.afterColon _ rest
    have member := value.member (hsp.lineStart depth) (named m List.mem_cons_self)
    rw [memberLexemes]
    simp only [List.cons_append, List.append_assoc]
    exact member.trailing blank_nil (.inl rfl)

/-- **The lexemes of a document are readable.** -/
theorem Plain.legible {v : Json} (hv : v.Plain) (hsp : sp.Blank) (depth : Nat) :
    Legible sp depth v := by
  induction hv generalizing depth with
  | null => exact fun _ hblank _ hls => .cons hblank trivial trivial hls.readable
  | bool b => exact fun _ hblank _ hls => .cons hblank trivial trivial hls.readable
  | number n => exact fun _ hblank _ hls => .cons hblank ⟨n, rfl⟩ hls.stops hls.readable
  | text s => exact fun _ hblank _ hls => .cons hblank rfl trivial hls.readable
  | @list items _ ih =>
    intro blanks hblank ls hls
    cases items with
    | nil => exact .cons hblank trivial trivial (.cons blank_nil trivial trivial hls.readable)
    | cons v vs =>
      have closed := hls.readable.trailing (hsp.lineStart depth) (.inr (.inl rfl))
      have items := trailing_itemLexemes hsp
        (fun w hw => ih w (List.mem_cons_of_mem v hw) (depth + 1)) closed
      have first := ih v List.mem_cons_self (depth + 1) _ (hsp.lineStart (depth + 1)) _ items
      rw [lexemes]
      simp only [List.cons_append, List.append_assoc, List.nil_append]
      exact .cons hblank trivial trivial first
  | @object members named _ ih =>
    intro blanks hblank ls hls
    cases members with
    | nil => exact .cons hblank trivial trivial (.cons blank_nil trivial trivial hls.readable)
    | cons m ms =>
      have closed := hls.readable.trailing (hsp.lineStart depth) (.inr (.inr rfl))
      have members := trailing_memberLexemes hsp
        (fun k hk => named k (List.mem_cons_of_mem m hk))
        (fun k hk => ih k (List.mem_cons_of_mem m hk) (depth + 1)) closed
      have value := ih m List.mem_cons_self (depth + 1) _ hsp.afterColon _ members
      have first := value.member (hsp.lineStart (depth + 1)) (named m List.mem_cons_self)
      rw [lexemes]
      simp only [List.cons_append, List.append_assoc, List.nil_append]
      exact .cons hblank trivial trivial first

end Lexemes

/-! ## The tokens of a document -/

/-- The tokens of the lexemes take the reader from one point to another. -/
def Reads (e : Expected) (ls : List Lexeme) (e' : Expected) : Prop :=
  (ls.map (·.2)).foldlM Expected.stepOrEnd e = some e'

theorem Reads.append {a b c : Expected} {ls ls' : List Lexeme} (h : Reads a ls b)
    (h' : Reads b ls' c) : Reads a (ls ++ ls') c := by
  unfold Reads at h ⊢
  rw [List.map_append, List.foldlM_append, h]
  exact h'

theorem Reads.cons {a b c : Expected} {blanks : List Char} {t : Token} {ls : List Lexeme}
    (h : a.stepOrEnd t = some b) (h' : Reads b ls c) : Reads a ((blanks, t) :: ls) c := by
  unfold Reads
  rw [List.map_cons, List.foldlM_cons, h]
  exact h'

theorem Reads.one {a b : Expected} {blanks : List Char} {t : Token}
    (h : a.stepOrEnd t = some b) : Reads a [(blanks, t)] b :=
  .cons h rfl

/-- A value may come here, inside what is open. -/
def Expected.Open (outer : List Enclosing) (e : Expected) : Prop :=
  e = .value outer ∨ e = .firstItem outer

/-- The first token of a value. -/
theorem Expected.Open.step {outer : List Enclosing} {e : Expected} (he : e.Open outer) {t : Token}
    (ht : t ≠ .closeBracket) : e.stepOrEnd t = (Expected.value outer).step t := by
  rcases he with rfl | rfl
  · rfl
  · unfold stepOrEnd
    split
    · exact absurd rfl ht
    · rfl

/-- The tokens of the value complete it, inside whatever is open. -/
def Completes (sp : Spacing) (depth : Nat) (v : Json) : Prop :=
  ∀ blanks outer e, e.Open outer → Reads e (lexemes sp depth blanks v) (.following v outer)

section Tokens
variable {sp : Spacing} {depth : Nat} (outer : List Enclosing) (blanks : List Char)

/-- The items after the first complete the list. -/
theorem reads_itemLexemes {vs : List Json} (hvs : ∀ v ∈ vs, Completes sp depth v) (v : Json)
    (before : List Json) :
    Reads (.following v (.list before :: outer))
      (itemLexemes sp depth vs ++ [(blanks, .closeBracket)])
      (.following (.list (before.reverse ++ v :: vs)) outer) := by
  induction vs generalizing v before with
  | nil =>
    have closed : Reads (.following v (.list before :: outer)) [(blanks, .closeBracket)]
        (.following (.list (v :: before).reverse) outer) := .one rfl
    rwa [List.reverse_cons] at closed
  | cons w vs ih =>
    have item := hvs w List.mem_cons_self (sp.lineStart depth) (.list (v :: before) :: outer) _
      (.inl rfl)
    have rest := ih (fun u hu => hvs u (List.mem_cons_of_mem w hu)) w (v :: before)
    rw [List.reverse_cons, List.append_assoc, List.singleton_append] at rest
    rw [itemLexemes, List.cons_append, List.cons_append, List.append_assoc]
    exact .cons rfl (item.append rest)

/-- The members after the first complete the object. -/
theorem reads_memberLexemes {ms : List (Option String × Json)}
    (hms : ∀ m ∈ ms, Completes sp depth m.2) (n : Option String) (v : Json)
    (before : List (Option String × Json)) :
    Reads (.following v (.object before n :: outer))
      (memberLexemes sp depth ms ++ [(blanks, .closeBrace)])
      (.following (.object (before.reverse ++ (n, v) :: ms)) outer) := by
  induction ms generalizing n v before with
  | nil =>
    have closed : Reads (.following v (.object before n :: outer)) [(blanks, .closeBrace)]
        (.following (.object ((n, v) :: before).reverse) outer) := .one rfl
    rwa [List.reverse_cons] at closed
  | cons m ms ih =>
    have value := hms m List.mem_cons_self sp.afterColon (.object ((n, v) :: before) m.1 :: outer) _
      (.inl rfl)
    have rest := ih (fun k hk => hms k (List.mem_cons_of_mem m hk)) m.1 m.2 ((n, v) :: before)
    rw [List.reverse_cons, List.append_assoc, List.singleton_append] at rest
    rw [memberLexemes]
    simp only [List.cons_append, List.append_assoc]
    exact .cons rfl (.cons rfl (.cons rfl (value.append rest)))

/-- **The tokens of a document complete it.** -/
theorem Plain.completes {v : Json} (hv : v.Plain) (depth : Nat) : Completes sp depth v := by
  induction hv generalizing depth with
  | null => exact fun _ _ _ he => .one (he.step nofun)
  | bool b => exact fun _ _ _ he => .one (he.step nofun)
  | number n => exact fun _ _ _ he => .one (he.step nofun)
  | text s => exact fun _ _ _ he => .one (he.step nofun)
  | @list items _ ih =>
    intro blanks outer e he
    cases items with
    | nil => exact .cons (he.step nofun) (.one rfl)
    | cons v vs =>
      have first := ih v List.mem_cons_self (depth + 1) (sp.lineStart (depth + 1))
        (.list [] :: outer) _ (.inr rfl)
      have items := reads_itemLexemes outer (sp.lineStart depth)
        (fun w hw => ih w (List.mem_cons_of_mem v hw) (depth + 1)) v []
      rw [lexemes]
      simp only [List.cons_append, List.append_assoc]
      exact .cons (he.step nofun) (first.append items)
  | @object members _ _ ih =>
    intro blanks outer e he
    cases members with
    | nil => exact .cons (he.step nofun) (.one rfl)
    | cons m ms =>
      have value := ih m List.mem_cons_self (depth + 1) sp.afterColon
        (.object [] m.1 :: outer) _ (.inl rfl)
      have members := reads_memberLexemes outer (sp.lineStart depth)
        (fun k hk => ih k (List.mem_cons_of_mem m hk) (depth + 1)) m.1 m.2 []
      rw [lexemes]
      simp only [List.cons_append, List.append_assoc]
      exact .cons (he.step nofun) (.cons rfl (.cons rfl (value.append members)))

end Tokens

/-- **A document comes back from its text.** -/
theorem Plain.parse?_render {v : Json} (hv : v.Plain) {sp : Spacing} (hsp : sp.Blank) :
    parse? (render sp v) = some v := by
  have readable := hv.legible hsp 0 [] blank_nil [] trailing_nil
  rw [List.append_nil] at readable
  have completed : Reads (.value []) (lexemes sp 0 [] v) (.following v []) :=
    hv.completes 0 [] [] _ (.inl rfl)
  unfold Reads at completed
  unfold parse? render
  rw [Token.scan_spellAll readable, Option.bind_some, ofTokens?, completed]
  rfl

/-! ## Records -/

theorem named?_ofFields (fields : List (String × Json)) :
    named? (fields.map fun f => (some f.1, f.2)) = some fields := by
  unfold named?
  exact mapM_map_eq_some fun _ _ => rfl

/-- A record gives its values by the names of its fields. -/
theorem toFields?_ofFields (fields : List (String × Json)) (hnodup : (fields.map (·.1)).Nodup)
    (closed : Bool) :
    (ofFields fields).toFields? (fields.map (·.1)) closed = some (fields.map (some ·.2)) := by
  have known : fields.filter (fun f => (fields.map (·.1)).contains f.1) = fields :=
    List.filter_eq_self.mpr fun f hf => List.contains_iff_mem.mpr (List.mem_map_of_mem hf)
  have found : (fields.map (·.1)).map (fun name => (fields.find? (·.1 == name)).map (·.2)) =
      fields.map (some ·.2) := by
    rw [List.map_map]
    refine List.map_congr_left fun f hf => ?_
    show (fields.find? (·.1 == f.1)).map (·.2) = some f.2
    rw [find?_key hnodup hf]
    rfl
  unfold toFields? ofFields
  dsimp only
  rw [named?_ofFields]
  dsimp only [Option.bind_eq_bind, Option.bind_some]
  rw [known, found, if_pos hnodup, if_neg]
  rw [Bool.and_eq_true, decide_eq_true_iff]
  exact fun h => Nat.lt_irrefl _ h.2

/-- A list gives the elements that its items were written from. -/
theorem toList?_map {α : Type} {f : Json → Option α} {g : α → Json} {as : List α}
    (h : ∀ a ∈ as, f (g a) = some a) : (list (as.map g)).toList? f = some as :=
  mapM_map_eq_some h

end WaveCollapse.Json
