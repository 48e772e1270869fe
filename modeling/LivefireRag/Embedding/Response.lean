import LivefireRag.Lib.Framing
import LivefireRag.Lib.Slots
import LivefireRag.Lib.Float32
import LivefireRag.Lib.Text
import LivefireRag.Embedding.TaskPart
import LivefireRag.Pipeline.PlanTiling

/-!
# Responses of an embedding server

A server answers a request for some texts with one vector for each of them, in any order,
every vector beside the position of its text. `parseEmbeddingResponse` puts the vectors
back into the order of the request and takes a digest of them, a hash of their canonical
JSON text.

A response is accepted when its positions are a permutation of those of the request, its
values are finite and its model has a name (`parseEmbeddingResponse_eq_ok`). What is
returned then says of each text its own vector, whatever the order of the response, and the
digest says what the vectors are (`parseEmbeddingResponse_faithful`), for the text
determines them: numbers have no comma or bracket in them (`canonicalBytes_inj`).

How a number is written, and the hash, are parameters.
-/

namespace LivefireRag.Embedding

open Fallible

structure EmbeddingDatum where
  index : ℕ
  embedding : List F32
  deriving DecidableEq

/-- A response as it is decoded. -/
structure EmbeddingResponse where
  model : String
  data : List EmbeddingDatum

structure IdentifiedEmbeddingBatch where
  vectors : List (List F32)
  returnedModel : String
  deriving DecidableEq

section Parse

variable (number : F32 → List Char) (sha256 : List UInt8 → Pipeline.Digest)

/-! ### The text of vectors -/

/-- The text of a JSON array, from the texts of its elements. -/
def arrayText (elements : List (List Char)) : List Char := Framing.bracketed '[' ']' ',' elements

def vectorText (vector : List F32) : List Char := arrayText (vector.map number)

/-- The canonical JSON of the vectors, and a line feed. -/
def canonicalBytes (vectors : List (List F32)) : List UInt8 :=
  Text.utf8 (String.ofList (arrayText (vectors.map (vectorText number)))) ++ [10]

def canonicalF32Vectors (vectors : List (List F32)) :
    Except EmbeddingError (List UInt8 × String) := do
  throwIf (∃ vector ∈ vectors, ∃ value ∈ vector, ¬ value.IsFinite)
    (.invalid "non-finite embedding value")
  let bytes := canonicalBytes number vectors
  return (bytes, (sha256 bytes).val)

/-! ### The order of a response -/

/-- A vector goes into the slot of its index, which must still be empty. -/
def placeDatum (ordered : List (Option (List F32))) (datum : EmbeddingDatum) :
    Except EmbeddingError (List (Option (List F32))) := do
  let slot ← orThrow ordered[datum.index]? (.invalid "response index")
  throwIf (slot ≠ none) (.invalid "duplicate response index")
  return ordered.set datum.index (some datum.embedding)

def parseEmbeddingResponse (response : EmbeddingResponse) (expectedCount : ℕ) :
    Except EmbeddingError (IdentifiedEmbeddingBatch × String) := do
  throwIf (response.data.length ≠ expectedCount) (.invalid "response cardinality")
  let ordered ← response.data.foldlM placeDatum (List.replicate expectedCount none)
  let vectors ← ordered.mapM fun value => orThrow value (.invalid "missing response index")
  let (_, normalizedSha256) ← canonicalF32Vectors number sha256 vectors
  throwIf (response.model = "") (.invalid "response model identity")
  return (⟨vectors, response.model⟩, normalizedSha256)

/-! ### What is accepted -/

/-- A vector beside its position. -/
def EmbeddingDatum.entry (datum : EmbeddingDatum) : ℕ × List F32 := (datum.index, datum.embedding)

theorem placeDatum_eq_ok {ordered after : List (Option (List F32))} {datum : EmbeddingDatum} :
    placeDatum ordered datum = .ok after ↔
      ordered[datum.index]? = some none ∧
        after = ordered.set datum.index (some datum.embedding) := by
  simp only [placeDatum, bind_eq_ok, orThrow_eq_ok, throwIf_eq_ok, exists_unit, pure_eq_ok,
    not_not]
  constructor
  · rintro ⟨slot, hslot, rfl, rfl⟩
    exact ⟨hslot, rfl⟩
  · rintro ⟨hslot, rfl⟩
    exact ⟨none, hslot, rfl, rfl⟩

/-- The slots are filled when every vector finds its own one empty. -/
theorem foldlM_placeDatum_eq_ok {data : List EmbeddingDatum}
    {ordered after : List (Option (List F32))} : data.foldlM placeDatum ordered = .ok after ↔
      Slots.Free ordered (data.map (·.entry)) ∧
        after = Slots.fill ordered (data.map (·.entry)) := by
  induction data generalizing ordered with
  | nil =>
    rw [List.foldlM_nil, pure_eq_ok]
    exact ⟨fun h => ⟨Slots.free_nil ordered, h.symm⟩, fun h => h.2.symm⟩
  | cons datum data ih =>
    rw [List.foldlM_cons, bind_eq_ok, List.map_cons, Slots.free_cons, Slots.fill_cons]
    constructor
    · rintro ⟨next, hplace, hrest⟩
      obtain ⟨hslot, rfl⟩ := placeDatum_eq_ok.mp hplace
      obtain ⟨hfree, rfl⟩ := ih.mp hrest
      exact ⟨⟨hslot, hfree⟩, rfl⟩
    · rintro ⟨⟨hslot, hfree⟩, rfl⟩
      exact ⟨_, placeDatum_eq_ok.mpr ⟨hslot, rfl⟩, ih.mpr ⟨hfree, rfl⟩⟩

theorem mapM_orThrow_eq_ok {ordered : List (Option (List F32))} {vectors : List (List F32)}
    {error : EmbeddingError} :
    (ordered.mapM fun value => orThrow value error) = .ok vectors ↔
      ordered = vectors.map some := by
  rw [mapM_eq_ok]
  simp only [orThrow_eq_ok]
  constructor
  · intro h
    induction h with
    | nil => rfl
    | cons hfirst _ ih => rw [List.map_cons, hfirst, ih]
  · rintro rfl
    exact List.forall₂_map_left_iff.mpr (List.forall₂_same.mpr fun _ _ => rfl)

/-- The indices of a response are a permutation of the positions of the request. -/
def EmbeddingResponse.Permutes (response : EmbeddingResponse) (n : ℕ) : Prop :=
  (response.data.map (·.index)).Perm (List.range n)

def EmbeddingResponse.Finite (response : EmbeddingResponse) : Prop :=
  ∀ datum ∈ response.data, ∀ value ∈ datum.embedding, value.IsFinite

/-- The vectors stand at the indices that the response gives them. -/
def EmbeddingResponse.Orders (response : EmbeddingResponse) (vectors : List (List F32)) : Prop :=
  ∀ datum ∈ response.data, vectors[datum.index]? = some datum.embedding

theorem EmbeddingResponse.Permutes.length_eq {response : EmbeddingResponse} {n : ℕ}
    (h : response.Permutes n) : response.data.length = n := by
  have hlength := List.Perm.length_eq h
  rwa [List.length_map, List.length_range] at hlength

/-- The vectors in order have the values of the response. -/
theorem EmbeddingResponse.Orders.finite_iff {response : EmbeddingResponse} {n : ℕ}
    {vectors : List (List F32)} (hperm : response.Permutes n) (hlength : vectors.length = n)
    (h : response.Orders vectors) :
    (∀ vector ∈ vectors, ∀ value ∈ vector, value.IsFinite) ↔ response.Finite := by
  constructor
  · intro hfinite datum hdatum
    exact hfinite _ (List.mem_of_getElem? (h datum hdatum))
  · intro hfinite vector hvector
    obtain ⟨position, hlt, rfl⟩ := List.mem_iff_getElem.mp hvector
    -- some entry of the response has this position
    obtain ⟨datum, hdatum, rfl⟩ := List.mem_map.mp
      (hperm.symm.subset (List.mem_range.mpr (hlength ▸ hlt)))
    have hslot := h datum hdatum
    rw [List.getElem?_eq_getElem hlt] at hslot
    rw [Option.some.inj hslot]
    exact hfinite datum hdatum

/-- **What is accepted, and what is returned.** -/
theorem parseEmbeddingResponse_eq_ok {response : EmbeddingResponse} {n : ℕ}
    {batch : IdentifiedEmbeddingBatch} {digest : String} :
    parseEmbeddingResponse number sha256 response n = .ok (batch, digest) ↔
      (response.Permutes n ∧ response.Finite ∧ response.model ≠ "") ∧
        batch.returnedModel = response.model ∧ batch.vectors.length = n ∧
        response.Orders batch.vectors ∧
        digest = (sha256 (canonicalBytes number batch.vectors)).val := by
  obtain ⟨vectors, model⟩ := batch
  have hperm_iff : ((response.data.map (·.entry)).map Prod.fst).Perm (List.range n) ↔
      response.Permutes n := by
    rw [List.map_map]
    rfl
  have horders : (∀ entry ∈ response.data.map (·.entry), vectors[entry.1]? = some entry.2) ↔
      response.Orders vectors := List.forall_mem_map
  simp only [parseEmbeddingResponse, canonicalF32Vectors, bind_eq_ok, throwIf_eq_ok, exists_unit,
    pure_eq_ok, foldlM_placeDatum_eq_ok, mapM_orThrow_eq_ok, not_exists, not_and, not_not,
    Prod.mk.injEq, IdentifiedEmbeddingBatch.mk.injEq]
  constructor
  · rintro ⟨hlength, ordered, ⟨hfree, rfl⟩, vectors, hfill, -, ⟨hfinite, rfl⟩, hmodel, ⟨rfl, rfl⟩, rfl⟩
    have hperm := (Slots.free_replicate_iff (by rwa [List.length_map])).mp hfree
    obtain ⟨hcount, hslots⟩ := (Slots.fill_eq_map_some_iff hperm).mp hfill
    rw [hperm_iff] at hperm
    have hordered := horders.mp hslots
    exact ⟨⟨hperm, (hordered.finite_iff hperm hcount).mp hfinite, hmodel⟩, rfl, hcount, hordered,
      rfl⟩
  · rintro ⟨⟨hperm, hfinite, hmodel⟩, rfl, hcount, hordered, rfl⟩
    have hperm' := hperm_iff.mpr hperm
    refine ⟨hperm.length_eq, _, ⟨?_, rfl⟩, vectors, ?_, _,
      ⟨(hordered.finite_iff hperm hcount).mpr hfinite, rfl⟩, hmodel, ⟨rfl, rfl⟩, rfl⟩
    · exact (Slots.free_replicate_iff (by rw [List.length_map, hperm.length_eq])).mpr hperm'
    · exact (Slots.fill_eq_map_some_iff hperm').mpr ⟨hcount, horders.mpr hordered⟩

theorem exists_parseEmbeddingResponse_iff {response : EmbeddingResponse} {n : ℕ} :
    (∃ batch digest, parseEmbeddingResponse number sha256 response n = .ok (batch, digest)) ↔
      response.Permutes n ∧ response.Finite ∧ response.model ≠ "" := by
  constructor
  · rintro ⟨batch, digest, h⟩
    exact ((parseEmbeddingResponse_eq_ok number sha256).mp h).1
  · intro haccepted
    have hperm : ((response.data.map (·.entry)).map Prod.fst).Perm (List.range n) := by
      rw [List.map_map]
      exact haccepted.1
    obtain ⟨vectors, hcount, hslots⟩ := Slots.exists_values hperm
    exact ⟨⟨vectors, response.model⟩, _, (parseEmbeddingResponse_eq_ok number sha256).mpr
      ⟨haccepted, rfl, hcount, List.forall_mem_map.mp hslots, rfl⟩⟩

/-- Nothing depends on the order in which the entries come. -/
theorem parseEmbeddingResponse_perm {response : EmbeddingResponse} {n : ℕ}
    {batch : IdentifiedEmbeddingBatch} {digest : String} {data : List EmbeddingDatum}
    (hdata : data.Perm response.data)
    (h : parseEmbeddingResponse number sha256 response n = .ok (batch, digest)) :
    parseEmbeddingResponse number sha256 { response with data } n = .ok (batch, digest) := by
  obtain ⟨⟨hperm, hfinite, hmodel⟩, hname, hcount, hordered, hdigest⟩ :=
    (parseEmbeddingResponse_eq_ok number sha256).mp h
  refine (parseEmbeddingResponse_eq_ok number sha256).mpr
    ⟨⟨?_, ?_, hmodel⟩, hname, hcount, ?_, hdigest⟩
  · exact (hdata.map EmbeddingDatum.index).trans hperm
  · exact fun datum hdatum => hfinite datum (hdata.subset hdatum)
  · exact fun datum hdatum => hordered datum (hdata.subset hdatum)

/-! ### What the digest says -/

/-- A finite number is written in digits, signs, points and exponents, and no two numbers
are written alike, but for the sign of zero. -/
structure IsNumberText : Prop where
  ne_nil : ∀ value : F32, value.IsFinite → number value ≠ []
  chars : ∀ value : F32, value.IsFinite → ∀ c ∈ number value, c.isDigit ∨ c ∈ ['-', '+', '.', 'e']
  same : ∀ value other : F32, value.IsFinite → other.IsFinite → number value = number other →
    value.Same other

variable {number}

theorem IsNumberText.notMem (hnumber : IsNumberText number) {value : F32} (hvalue : value.IsFinite)
    {c : Char} (hc : c ∈ [',', '[', ']']) : c ∉ number value := by
  intro hin
  have hall : ∀ c ∈ [',', '[', ']'], ¬ (c.isDigit ∨ c ∈ ['-', '+', '.', 'e']) := by decide
  exact hall c hc (hnumber.chars value hvalue c hin)

/-- Lists whose texts are equal piece by piece are related piece by piece. -/
theorem forall₂_of_map_eq {α β : Type} {text : α → β} {R : α → α → Prop} {xs ys : List α}
    (h : ∀ x ∈ xs, ∀ y ∈ ys, text x = text y → R x y) (heq : xs.map text = ys.map text) :
    List.Forall₂ R xs ys := by
  induction xs generalizing ys with
  | nil =>
    obtain rfl := List.map_eq_nil_iff.mp heq.symm
    exact .nil
  | cons x xs ih =>
    cases ys with
    | nil => exact absurd heq (List.cons_ne_nil _ _)
    | cons y ys =>
      obtain ⟨hfirst, hrest⟩ := List.cons.inj heq
      refine .cons (h x List.mem_cons_self y List.mem_cons_self hfirst) (ih ?_ hrest)
      intro a ha b hb
      exact h a (List.mem_cons_of_mem x ha) b (List.mem_cons_of_mem y hb)

/-- The numbers of a vector are read back from between its brackets. -/
theorem vectorText_inj (hnumber : IsNumberText number) {vector vector' : List F32}
    (h : ∀ value ∈ vector, value.IsFinite) (h' : ∀ value ∈ vector', value.IsFinite)
    (heq : [','].intercalate (vector.map number) = [','].intercalate (vector'.map number)) :
    List.Forall₂ F32.Same vector vector' := by
  have hpieces : ∀ vector : List F32, (∀ value ∈ vector, value.IsFinite) →
      ∀ piece ∈ vector.map number, piece ≠ [] ∧ ',' ∉ piece := by
    intro vector hfinite piece hpiece
    obtain ⟨value, hvalue, rfl⟩ := List.mem_map.mp hpiece
    exact ⟨hnumber.ne_nil value (hfinite value hvalue),
      hnumber.notMem (hfinite value hvalue) (by decide)⟩
  refine forall₂_of_map_eq (fun value hvalue other hother hsame => ?_)
    (Framing.intercalate_inj (hpieces vector h) (hpieces vector' h') heq)
  exact hnumber.same value other (h value hvalue) (h' other hother) hsame

theorem closing_notMem (hnumber : IsNumberText number) {vector : List F32}
    (h : ∀ value ∈ vector, value.IsFinite) :
    ']' ∉ '[' :: [','].intercalate (vector.map number) := by
  intro hin
  rcases List.mem_cons.mp hin with hbracket | hin
  · exact absurd hbracket (by decide)
  obtain ⟨piece, hpiece, hclosing⟩ := (Framing.mem_intercalate (by decide)).mp hin
  obtain ⟨value, hvalue, rfl⟩ := List.mem_map.mp hpiece
  exact hnumber.notMem (h value hvalue) (by decide) hclosing

/-- The canonical text of finite vectors says what the vectors are. -/
theorem canonicalBytes_inj (hnumber : IsNumberText number) {vectors vectors' : List (List F32)}
    (h : ∀ vector ∈ vectors, ∀ value ∈ vector, value.IsFinite)
    (h' : ∀ vector ∈ vectors', ∀ value ∈ vector, value.IsFinite)
    (heq : canonicalBytes number vectors = canonicalBytes number vectors') :
    List.Forall₂ (List.Forall₂ F32.Same) vectors vectors' := by
  -- without the outer brackets, a list of vectors that each end in a bracket
  let body (vector : List F32) : List Char := '[' :: [','].intercalate (vector.map number)
  have hbodies : ∀ vectors : List (List F32),
      vectors.map (vectorText number) = (vectors.map body).map (· ++ [']']) := by
    intro vectors
    rw [List.map_map]
    rfl
  have htext := String.ofList_injective (Text.utf8_injective (List.append_cancel_right heq))
  have hinner := (List.cons.inj (List.append_cancel_right htext)).2
  rw [hbodies, hbodies] at hinner
  have hclosing : ∀ vectors : List (List F32),
      (∀ vector ∈ vectors, ∀ value ∈ vector, value.IsFinite) →
      ∀ piece ∈ vectors.map body, ']' ∉ piece := by
    intro vectors hfinite piece hpiece
    obtain ⟨vector, hvector, rfl⟩ := List.mem_map.mp hpiece
    exact closing_notMem hnumber (hfinite vector hvector)
  have hmap := Framing.intercalate_closed_inj (by decide) (hclosing vectors h)
    (hclosing vectors' h') hinner
  refine forall₂_of_map_eq (fun vector hvector other hother hsame => ?_) hmap
  exact vectorText_inj hnumber (h vector hvector) (h' other hother) (List.cons.inj hsame).2

variable {sha256}

/-- **Responses are put into the order of the request.** A response is accepted exactly when
its indices are a permutation of the positions, its values are finite and its model has a
name. Every vector then stands at its own index, the order of the entries does not matter,
and responses with one digest carry the same vectors, where the hash does not collide on
their texts. -/
theorem parseEmbeddingResponse_faithful (hnumber : IsNumberText number) (n : ℕ)
    (response : EmbeddingResponse) :
    ((∃ batch digest, parseEmbeddingResponse number sha256 response n = .ok (batch, digest)) ↔
      (response.data.map (·.index)).Perm (List.range n) ∧
        (∀ datum ∈ response.data, ∀ value ∈ datum.embedding, value.IsFinite) ∧
        response.model ≠ "") ∧
    ∀ batch digest, parseEmbeddingResponse number sha256 response n = .ok (batch, digest) →
      batch.vectors.length = n ∧
      (∀ datum ∈ response.data, batch.vectors[datum.index]? = some datum.embedding) ∧
      (∀ data, data.Perm response.data →
        parseEmbeddingResponse number sha256 { response with data } n = .ok (batch, digest)) ∧
      ∀ n' response' batch' digest',
        parseEmbeddingResponse number sha256 response' n' = .ok (batch', digest') →
        (sha256 (canonicalBytes number batch.vectors) =
            sha256 (canonicalBytes number batch'.vectors) →
          canonicalBytes number batch.vectors = canonicalBytes number batch'.vectors) →
        digest = digest' →
          List.Forall₂ (List.Forall₂ F32.Same) batch.vectors batch'.vectors := by
  refine ⟨exists_parseEmbeddingResponse_iff number sha256, fun batch digest h => ?_⟩
  obtain ⟨⟨hperm, hfinite, -⟩, -, hcount, hordered, hdigest⟩ :=
    (parseEmbeddingResponse_eq_ok number sha256).mp h
  refine ⟨hcount, hordered, fun data hdata => parseEmbeddingResponse_perm number sha256 hdata h, ?_⟩
  intro n' response' batch' digest' h' hcollision hsame
  obtain ⟨⟨hperm', hfinite', -⟩, -, hcount', hordered', hdigest'⟩ :=
    (parseEmbeddingResponse_eq_ok number sha256).mp h'
  refine canonicalBytes_inj hnumber ((hordered.finite_iff hperm hcount).mpr hfinite)
    ((hordered'.finite_iff hperm' hcount').mpr hfinite') (hcollision (Subtype.ext ?_))
  rw [← hdigest, ← hdigest', hsame]

end Parse

/-! ### Two entries in the wrong order -/

/-- Zero is written as it is, and every other number by its bits. -/
def sampleNumber (value : F32) : List Char :=
  if value.IsZero then ['0'] else '1' :: 'e' :: (Text.zeroPadded 1 value).toList

theorem isNumberText_sampleNumber : IsNumberText sampleNumber := by
  refine ⟨fun value _ => ?_, fun value _ c hc => ?_, fun value other _ _ heq => ?_⟩
  · unfold sampleNumber
    split <;> exact List.cons_ne_nil _ _
  · unfold sampleNumber at hc
    split at hc
    · exact .inl (by rw [List.mem_singleton.mp hc]; rfl)
    · rcases List.mem_cons.mp hc with rfl | hc
      · exact .inl rfl
      · rcases List.mem_cons.mp hc with rfl | hc
        · exact .inr (by decide)
        · exact .inl (Text.isDigit_of_mem_zeroPadded hc)
  · unfold sampleNumber at heq
    split at heq <;> split at heq
    · next hvalue hother => exact .inr ⟨hvalue, hother⟩
    · exact absurd (List.cons.inj heq).1 (by decide)
    · exact absurd (List.cons.inj heq).1 (by decide)
    · have hdigits := (List.cons.inj (List.cons.inj heq).2).2
      exact .inl (Fin.ext (Text.zeroPadded_injective 1 (String.toList_injective hdigits)))

/-- The vector of the second text comes first, and is put second. -/
theorem swapped_response : ∃ batch digest,
    parseEmbeddingResponse sampleNumber (fun bytes => Pipeline.hexDigest bytes.length)
      ⟨"model", [⟨1, [0, 0]⟩, ⟨0, [0]⟩]⟩ 2 = .ok (batch, digest) ∧
    batch.vectors.length = 2 ∧ batch.vectors[0]? = some [0] ∧
    batch.vectors[1]? = some [0, 0] := by
  obtain ⟨haccepted, hreturned⟩ := @parseEmbeddingResponse_faithful sampleNumber
    (fun bytes => Pipeline.hexDigest bytes.length) isNumberText_sampleNumber 2
    ⟨"model", [⟨1, [0, 0]⟩, ⟨0, [0]⟩]⟩
  have hfinite : F32.IsFinite 0 := by simp [F32.IsFinite]
  obtain ⟨batch, digest, h⟩ := haccepted.mpr
    ⟨List.Perm.swap 0 1 [], by simp [hfinite], by decide⟩
  obtain ⟨hcount, hordered, -⟩ := hreturned batch digest h
  exact ⟨batch, digest, h, hcount, hordered ⟨0, [0]⟩ (by decide),
    hordered ⟨1, [0, 0]⟩ (by decide)⟩

end LivefireRag.Embedding
