import ItvpnAgent.Server.Request

/-! Submitted forms. `parse_paremeters` splits the encoded text and decodes nothing
of it, and finds the length under one spelling of the header only. -/

namespace ItvpnAgent.Server

open Kit

variable {pairs : List (Str × Str)}

/-! ### Texts that read as given pairs -/

theorem count_joined {name value : Str} (hname : '=' ∉ name) (hvalue : '=' ∉ value) :
    (name ++ '=' :: value).count '=' = 1 := by
  rw [List.count_append, List.count_cons_self, List.count_eq_zero.mpr hname, List.count_eq_zero.mpr hvalue]

/-- The pieces of joined pairs. -/
theorem splitOn_joinPairs (hne : pairs ≠ []) (h : Separated pairs) :
    (joinPairs pairs).splitOn '&' = pairs.map fun p => p.1 ++ '=' :: p.2 := by
  refine List.splitOn_intercalate '&' ?_ (by simpa using hne)
  intro piece hpiece
  obtain ⟨p, hp, rfl⟩ := List.mem_map.mp hpiece
  obtain ⟨⟨hname, -⟩, hvalue, -⟩ := h p hp
  simp [hname, hvalue]

theorem readPairs_joinPairs (hne : pairs ≠ []) (h : Separated pairs) :
    readPairs ((joinPairs pairs).splitOn '&') = some pairs := by
  rw [splitOn_joinPairs hne h, readPairs_eq_some_iff, List.map_map]
  refine List.map_congr_left fun p hp => ?_
  exact splitPair_of_notMem (h p hp).1.2 (h p hp).2.2

/-- Pieces with one `=` each are the pairs they are split into. -/
theorem eq_map_of_readPairs {pieces : List Str} (hone : ∀ piece ∈ pieces, piece.count '=' ≤ 1)
    (h : readPairs pieces = some pairs) :
    pieces = pairs.map (fun p => p.1 ++ '=' :: p.2) ∧ ∀ p ∈ pairs, '=' ∉ p.1 ∧ '=' ∉ p.2 := by
  rw [readPairs_eq_some_iff] at h
  induction pieces generalizing pairs with
  | nil =>
    rw [List.map_nil, eq_comm, List.map_eq_nil_iff] at h
    subst h
    exact ⟨rfl, fun _ hp => absurd hp List.not_mem_nil⟩
  | cons piece pieces ih =>
    cases pairs with
    | nil => cases h
    | cons p pairs =>
      rw [List.map_cons, List.map_cons, List.cons.injEq] at h
      rw [List.forall_mem_cons] at hone ⊢
      obtain ⟨hpiece, hname, hvalue⟩ := eq_append_of_splitPair hone.1 h.1
      obtain ⟨hpieces, hrest⟩ := ih hone.2 h.2
      exact ⟨by rw [List.map_cons, hpieces, hpiece], ⟨hname, hvalue⟩, hrest⟩

/-- Text with at most one `=` in each piece reads as the pairs it is made of. -/
theorem readPairs_iff {text : Str} (hne : pairs ≠ [])
    (hone : ∀ piece ∈ text.splitOn '&', piece.count '=' ≤ 1) :
    readPairs (text.splitOn '&') = some pairs ↔ text = joinPairs pairs ∧ Separated pairs := by
  constructor
  · intro h
    obtain ⟨hpieces, heq⟩ := eq_map_of_readPairs hone h
    refine ⟨by rw [joinPairs, ← hpieces, List.intercalate_splitOn], fun p hp => ?_⟩
    have hpiece : p.1 ++ '=' :: p.2 ∈ text.splitOn '&' := hpieces ▸ List.mem_map_of_mem hp
    have hamp := notMem_of_mem_splitOn hpiece
    rw [List.mem_append, List.mem_cons, not_or, not_or] at hamp
    exact ⟨⟨hamp.1, (heq p hp).1⟩, hamp.2.2, (heq p hp).2⟩
  · rintro ⟨rfl, hsep⟩
    exact readPairs_joinPairs hne hsep

/-! ### Encoded text -/

/-- An encoded form has one `=` in each piece, so a part of it that is cut off has
at most one. -/
theorem count_take_encodeForm (hne : pairs ≠ []) (n : ℕ) :
    ∀ piece ∈ ((encodeForm pairs).take n).splitOn '&', piece.count '=' ≤ 1 := by
  intro piece hpiece
  obtain ⟨longer, hlonger, hprefix⟩ := exists_prefix_of_mem_splitOn hpiece ((encodeForm pairs).drop n)
  have hsep := separated_encode pairs
  rw [List.take_append_drop, encodeForm, splitOn_joinPairs (by simpa using hne) hsep] at hlonger
  obtain ⟨p, hp, rfl⟩ := List.mem_map.mp hlonger
  obtain ⟨⟨-, hname⟩, -, hvalue⟩ := hsep p hp
  calc piece.count '=' ≤ (p.1 ++ '=' :: p.2).count '=' := hprefix.sublist.count_le '='
    _ = 1 := count_joined hname hvalue
    _ ≤ 1 := le_rfl

/-- The encoding leaves a form alone exactly if all its characters are unreserved. -/
theorem encodeForm_eq_joinPairs_iff (hne : pairs ≠ []) :
    encodeForm pairs = joinPairs pairs ∧ Separated pairs ↔ Unreserved pairs := by
  constructor
  · rintro ⟨hsame, hsep⟩
    -- the same pieces, hence the same names and values
    have hread := readPairs_joinPairs (by simpa using hne) (separated_encode pairs)
    rw [← encodeForm, hsame, readPairs_joinPairs hne hsep] at hread
    have hpairs : pairs.map (fun p => (encodeComponent p.1, encodeComponent p.2)) = pairs.map id := by
      rw [List.map_id]
      exact (Option.some.inj hread).symm
    intro p hp
    have hp := List.map_inj_left.mp hpairs p hp
    exact ⟨encodeComponent_eq_self_iff.mp (congrArg Prod.fst hp),
      encodeComponent_eq_self_iff.mp (congrArg Prod.snd hp)⟩
  · intro h
    have hpairs : pairs.map (fun p => (encodeComponent p.1, encodeComponent p.2)) = pairs := by
      calc pairs.map (fun p => (encodeComponent p.1, encodeComponent p.2)) = pairs.map id :=
            List.map_inj_left.mpr fun p hp => Prod.ext (encodeComponent_eq_self_iff.mpr (h p hp).1)
              (encodeComponent_eq_self_iff.mpr (h p hp).2)
        _ = pairs := List.map_id pairs
    have hsep := separated_encode pairs
    rw [hpairs] at hsep
    exact ⟨by rw [encodeForm, hpairs], hsep⟩

theorem encodeForm_ne_nil (hne : pairs ≠ []) : encodeForm pairs ≠ [] := by
  intro hnil
  have hread := readPairs_joinPairs (by simpa using hne) (separated_encode pairs)
  rw [← encodeForm, hnil] at hread
  cases hread

/-! ### Decoding -/

/-- The parameters that a decoded form adds. -/
def Decodes (request : Request) (params : Str) (pairs : List (Str × Str)) : Prop :=
  parseParemeters request params = .ok (request.addParameters pairs)

/-- What is cut off the text at the declared length must be the pairs as they are. -/
theorem decodes_iff_take {request : Request} (hne : pairs ≠ []) :
    Decodes request (encodeForm pairs) pairs ↔ ∃ n > 0, Declares request n ∧
      n ≤ (encodeForm pairs).length ∧ (encodeForm pairs).take n.toNat = joinPairs pairs ∧ Separated pairs := by
  by_cases hlength : 0 < contentLength request
  · rw [exists_declares_iff hlength, Decodes, parseParemeters_eq_ok_iff (encodeForm_ne_nil hne) hlength,
      ← readPairs_iff hne (count_take_encodeForm hne _)]
    constructor
    · rintro ⟨hfits, read, hread, hsame⟩
      exact ⟨hfits, addParameters_inj hsame ▸ hread⟩
    · rintro ⟨hfits, hread⟩
      exact ⟨hfits, pairs, hread, rfl⟩
  · have hnone : parseParemeters request (encodeForm pairs) = .ok request :=
      parseParemeters_none (.inr (Int.not_lt.mp hlength))
    rw [Decodes, hnone]
    constructor
    · intro h
      exact absurd (Outcome.ok.inj h).symm (addParameters_ne hne)
    · rintro ⟨n, hn, hdeclares, -⟩
      exact absurd hdeclares (not_declares hlength hn)

/-- A form is decoded exactly if the length is declared under the one spelling and
nothing of the form is escaped. A length that is too short does no harm only where
the cut leaves the pairs as they are, inside the escape of a last byte. -/
theorem decodes_iff {request : Request} (hne : pairs ≠ []) :
    Decodes request (encodeForm pairs) pairs ↔ ∃ n > 0, Declares request n ∧
      ((n = (encodeForm pairs).length ∧ Unreserved pairs) ∨
        (n < (encodeForm pairs).length ∧ (encodeForm pairs).take n.toNat = joinPairs pairs ∧
          Separated pairs)) := by
  rw [decodes_iff_take hne, ← encodeForm_eq_joinPairs_iff hne]
  have hwhole : (encodeForm pairs).take ((encodeForm pairs).length : ℤ).toNat = encodeForm pairs := by
    rw [Int.toNat_natCast, List.take_length]
  constructor
  · rintro ⟨n, hn, hdeclares, hle, hcut⟩
    refine ⟨n, hn, hdeclares, ?_⟩
    by_cases hlength : n = (encodeForm pairs).length
    · subst hlength
      rw [hwhole] at hcut
      exact .inl ⟨rfl, hcut⟩
    · exact .inr ⟨by omega, hcut⟩
  · rintro ⟨n, hn, hdeclares, ⟨rfl, hsame⟩ | ⟨hlt, hcut⟩⟩
    · exact ⟨_, hn, hdeclares, Int.le_refl _, by rwa [hwhole]⟩
    · exact ⟨n, hn, hdeclares, by omega, hcut⟩

/-- A POST with one header. -/
def postWith (name value : Str) : Request where
  method := "POST".toList
  uri := "/".toList
  httpVersionMajor := 1
  httpVersionMinor := 1
  headers := [{ name, value }]
  parameters := []

/-- Two fields of the form of the start page. -/
theorem decodes_iff_franks : Decodes (postWith "Content-Length".toList "23".toList)
    (encodeForm [("name1".toList, "Frank".toList), ("name2".toList, "Frank".toList)])
    [("name1".toList, "Frank".toList), ("name2".toList, "Frank".toList)] := by
  have hunreserved : Unreserved [("name1".toList, "Frank".toList), ("name2".toList, "Frank".toList)] := by
    intro p hp
    simp only [List.mem_cons, List.not_mem_nil, or_false] at hp
    rcases hp with rfl | rfl
    all_goals exact ⟨rfl, rfl⟩
  exact (decodes_iff (List.cons_ne_nil _ _)).mpr ⟨23, by decide, rfl, .inl ⟨rfl, hunreserved⟩⟩

/-- The letter Ф comes out as its escape, and a length under `content-length` is not
seen at all. -/
theorem escaped_letter_kept :
    ¬ Decodes (postWith "Content-Length".toList "12".toList) (encodeForm [("name1".toList, "\xd0\xa4".toList)])
      [("name1".toList, "\xd0\xa4".toList)] ∧
    ¬ Decodes (postWith "content-length".toList "11".toList) (encodeForm [("name1".toList, "Frank".toList)])
      [("name1".toList, "Frank".toList)] := by
  constructor
  · intro h
    cases h
  · intro h
    cases h

end ItvpnAgent.Server
