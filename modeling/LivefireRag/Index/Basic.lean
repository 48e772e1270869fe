import LivefireRag.Lib.Machine

/-!
# Index searches

The data an index search takes and returns. A search ranks the eligible documents
and keeps the first of them (`selectHits`). Scores are of any type: the searches
compare them and hand them on.
-/

namespace LivefireRag.Index

open Machine

/-- The errors of the index. `aborted` is the end of a run that the source ends by a
panic. -/
inductive IndexError where
  | io
  | sqlite (what : String)
  | invalid (what : String)
  | corrupt (what : String)
  | aborted
  deriving DecidableEq

abbrev Result := Except IndexError

inductive SearchMode where
  | dense
  | lexical
  | fused
  deriving DecidableEq

structure SearchFilters where
  relations : List String
  timeStartMs : Option U64
  timeEndMs : Option U64
  deriving DecidableEq

structure FastDocument where
  documentId : String
  documentSha256 : String
  documentKind : String
  semanticText : String
  facetsJson : String
  relationsJson : String
  occurrenceCount : U64
  vectorOrdinal : U64
  deriving DecidableEq

structure EvidenceOccurrence where
  eventTimeMs : Option U64
  relation : String
  snapshotSha256 : String
  mappingSha256 : String
  eventId : String
  supportRef : String
  deriving DecidableEq

structure SearchHit (Score : Type) where
  rank : ℕ
  documentId : String
  semanticText : String
  score : Score
  denseScore : Option Score
  lexicalScore : Option Score
  eligibleOccurrenceCount : U64
  occurrencesExhausted : Bool
  occurrences : List EvidenceOccurrence
  deriving DecidableEq

variable {Score : Type}

/-- The first `n` of a ranking, numbered from 1. -/
def selectHits (ranking : List (SearchHit Score)) (n : ℕ) : List (SearchHit Score) :=
  (ranking.take n).mapIdx fun index hit => { hit with rank := index + 1 }

@[simp] theorem length_selectHits (ranking : List (SearchHit Score)) (n : ℕ) :
    (selectHits ranking n).length = min n ranking.length := by
  rw [selectHits, List.length_mapIdx, List.length_take]

/-- A shorter selection is the beginning of a longer one. -/
theorem selectHits_eq_take (ranking : List (SearchHit Score)) {m n : ℕ} (h : m ≤ n) :
    selectHits ranking m = (selectHits ranking n).take m := by
  refine List.ext_getElem? fun i => ?_
  rw [selectHits, selectHits, List.getElem?_take, List.getElem?_mapIdx, List.getElem?_mapIdx,
    List.getElem?_take, List.getElem?_take]
  by_cases hi : i < m
  · rw [if_pos hi, if_pos hi, if_pos (hi.trans_le h)]
  · rw [if_neg hi, if_neg hi, Option.map_none]

/-- What does not read the rank reads the ranking itself. -/
theorem map_selectHits {β : Type} {f : SearchHit Score → β}
    (hf : ∀ hit index, f { hit with rank := index } = f hit) (ranking : List (SearchHit Score))
    (n : ℕ) : (selectHits ranking n).map f = (ranking.take n).map f := by
  refine List.ext_getElem? fun i => ?_
  rw [selectHits, List.getElem?_map, List.getElem?_map, List.getElem?_mapIdx, Option.map_map]
  exact congrFun (congrArg Option.map (funext fun hit => hf hit (i + 1))) _

end LivefireRag.Index
