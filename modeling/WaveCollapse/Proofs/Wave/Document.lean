import WaveCollapse.Proofs.Json.RoundTrip
import WaveCollapse.Proofs.Wave.WellFormed
import WaveCollapse.Wave.Document

/-! # Waves and their documents

A wave whose layout fits machine words comes back from its document with every field
(`ofDocument?_document`), whatever its bits: the word is written as one number below `2 ^ 64`, and
the layout is kept beside it.  So the text of a vector gives the vector back
(`ofSnapshotText?_snapshotText`).  In the other direction nothing but words is ever read
(`wordSized_of_ofSnapshotText?`); whether the layout is valid and the bits lie below its width is
not asked.
-/

namespace WaveCollapse

/-- The layout's numbers fit 64 bits, as the fields of a document do. -/
structure Layout.WordSized (l : Layout) : Prop where
  classId : l.classId < twoTo 64
  stride : l.stride < twoTo 64
  width : l.width < twoTo 64

/-- The width of a well-formed wave fits by itself. -/
theorem Wave.WellFormed.wordSized {w : Wave} (h : w.WellFormed)
    (classId : w.layout.classId < twoTo 64) (stride : w.layout.stride < twoTo 64) :
    w.layout.WordSized :=
  ⟨classId, stride, Nat.lt_of_le_of_lt h.1.2.1 (by decide)⟩

namespace Wave

/-! ## One wave -/

theorem isFirstBit_head :
    isFirstBit (.ofFields [("width", .ofNat 64), ("index", .ofNat 0)]) = true := by
  have hdistinct : ["width", "index"].Nodup := by decide
  have hfields : Json.toFields? ["width", "index"] true
      (.ofFields [("width", .ofNat 64), ("index", .ofNat 0)]) =
        some [some (.ofNat 64), some (.ofNat 0)] :=
    Json.toFields?_ofFields [("width", .ofNat 64), ("index", .ofNat 0)] hdistinct true
  unfold isFirstBit
  rw [hfields]
  dsimp only
  rw [Json.toNat64?_ofNat (by decide), Json.toNat64?_ofNat (by decide)]
  rfl

/-- A word comes back, whichever of its bits are set. -/
theorem bitsOfDocument?_bitsDocument (bits : BitVec 64) :
    bitsOfDocument? (bitsDocument bits) = some bits := by
  have hdistinct : ["order", "head", "bits", "data"].Nodup := by decide
  have hfields : (bitsDocument bits).toFields? ["order", "head", "bits", "data"] true =
      some [some (.ofString bitOrder),
        some (.ofFields [("width", .ofNat 64), ("index", .ofNat 0)]),
        some (.ofNat 64), some (.list [.ofNat bits.toNat])] :=
    Json.toFields?_ofFields [("order", _), ("head", _), ("bits", _), ("data", _)] hdistinct true
  have hword : (Json.ofNat bits.toNat).toNat64? = some bits.toNat :=
    Json.toNat64?_ofNat bits.isLt
  have hsize : (Json.ofNat 64).toNat64? = some 64 := Json.toNat64?_ofNat (by decide)
  unfold bitsOfDocument?
  rw [hfields]
  dsimp only [Option.bind_eq_bind, Option.bind_some]
  rw [if_pos ⟨rfl, isFirstBit_head, hsize⟩, hword]
  exact congrArg some (BitVec.eq_of_toNat_eq (by simp))

/-- **A wave comes back from its document.** -/
theorem ofDocument?_document {w : Wave} (h : w.layout.WordSized) :
    ofDocument? w.document = some w := by
  have hdistinct : ["bits", "exclusion_class", "global_dimension", "local_dimension"].Nodup := by
    decide
  have hfields : w.document.toFields?
      ["bits", "exclusion_class", "global_dimension", "local_dimension"] =
        some [some (bitsDocument w.bits), some (.ofNat w.layout.classId),
          some (.ofNat w.layout.stride), some (.ofNat w.layout.width)] :=
    Json.toFields?_ofFields [("bits", _), ("exclusion_class", _), ("global_dimension", _),
      ("local_dimension", _)] hdistinct false
  unfold ofDocument?
  rw [hfields]
  dsimp only [Option.bind_eq_bind, Option.bind_some]
  rw [Json.toNat64?_ofNat h.classId, Json.toNat64?_ofNat h.stride, Json.toNat64?_ofNat h.width,
    bitsOfDocument?_bitsDocument]
  rfl

/-- The numbers of a layout are read as words. -/
theorem wordSized_of_ofDocument? {j : Json} {w : Wave} (h : ofDocument? j = some w) :
    w.layout.WordSized := by
  unfold ofDocument? at h
  obtain ⟨fields, -, h⟩ := Option.bind_eq_some_iff.mp h
  split at h
  · obtain ⟨classId, hclass, h⟩ := Option.bind_eq_some_iff.mp h
    obtain ⟨stride, hstride, h⟩ := Option.bind_eq_some_iff.mp h
    obtain ⟨width, hwidth, h⟩ := Option.bind_eq_some_iff.mp h
    obtain ⟨bits, -, h⟩ := Option.bind_eq_some_iff.mp h
    cases h
    exact ⟨Json.lt_of_toNat64? hclass, Json.lt_of_toNat64? hstride, Json.lt_of_toNat64? hwidth⟩
  · cases h

/-! ## A vector -/

theorem plain_document (w : Wave) : w.document.Plain := by
  have bits : (bitsDocument w.bits).Plain := by
    refine .ofFields ?_
    simp only [List.forall_mem_cons]
    refine ⟨.text _, .ofFields ?_, .number _, .list ?_, fun _ h => nomatch h⟩
    · simp only [List.forall_mem_cons]
      exact ⟨.number _, .number _, fun _ h => nomatch h⟩
    · simp only [List.forall_mem_cons]
      exact ⟨.number _, fun _ h => nomatch h⟩
  refine .ofFields ?_
  simp only [List.forall_mem_cons]
  exact ⟨bits, .number _, .number _, .number _, fun _ h => nomatch h⟩

/-- **A vector comes back from its text.** -/
theorem ofSnapshotText?_snapshotText {ws : List Wave} (h : ∀ w ∈ ws, w.layout.WordSized) :
    ofSnapshotText? (snapshotText ws) = some ws := by
  have plain : (Json.list (ws.map document)).Plain := by
    refine .list fun j hj => ?_
    obtain ⟨w, -, rfl⟩ := List.mem_map.mp hj
    exact w.plain_document
  unfold ofSnapshotText? snapshotText
  rw [plain.parse?_render Json.Spacing.blank_indented, Option.bind_some]
  exact Json.toList?_map fun w hw => ofDocument?_document (h w hw)

/-- Whatever a text spells, its layouts are made of words. -/
theorem wordSized_of_ofSnapshotText? {text : String} {ws : List Wave}
    (h : ofSnapshotText? text = some ws) : ∀ w ∈ ws, w.layout.WordSized := by
  unfold ofSnapshotText? at h
  obtain ⟨j, -, h⟩ := Option.bind_eq_some_iff.mp h
  unfold Json.toList? at h
  split at h
  · intro w hw
    obtain ⟨item, -, hitem⟩ := exists_of_mem_mapM_some h hw
    exact wordSized_of_ofDocument? hitem
  · cases h

end Wave
end WaveCollapse
