import Mathlib.Data.List.Forall2
import Storyworld.Proofs.Quoting
import Storyworld.Turn

/-! What a fingerprint stands for. The bytes of a history determine the role and the command source
of each of its turns, up to pairs of halves that stand for a character, and depend on nothing else;
hexadecimal digits determine the digest that they spell. -/

namespace Storyworld

/-- What a turn adds to the fingerprint of its history. -/
def Turn.source (t : Turn) : Role × Text := (t.role, t.commandSource.joined)

theorem Role.name_inj {r q : Role} (h : r.name = q.name) : r = q := by
  revert h
  cases r <;> cases q <;> decide

theorem Role.name_joined {r q : Role} (h : joinHalves r.name.toList = joinHalves q.name.toList) :
    r = q := by
  have happart (r : Role) : Apart r.name.toList := by cases r <;> decide
  rw [(happart r).joinHalves_eq, (happart q).joinHalves_eq] at h
  exact Role.name_inj (Text.toList_inj.mp h)

theorem transcript_toList (t : Turn) :
    t.transcript.toList = .char '[' :: (quoteData true t.role.name.toList ++
      .char ',' :: .char ' ' :: (quoteData true t.commandSource.toList ++ [.char ']'])) := by
  simp [Turn.transcript, quotedAscii]

theorem transcript_ascii (t : Turn) : ∀ x ∈ t.transcript.toList, x.toNat < 128 := by
  simp only [transcript_toList, List.forall_mem_cons, List.forall_mem_append]
  exact ⟨by decide, quoteData_ascii _, by decide, by decide, quoteData_ascii _, by decide, by simp⟩

/-- A transcript at the front of a text determines its turn, as far as replay sees it. -/
theorem transcript_append_inj {t u : Turn} {rest rest' : List Code}
    (h : t.transcript.toList ++ rest = u.transcript.toList ++ rest') :
    t.source = u.source ∧ rest = rest' := by
  simp only [transcript_toList, List.cons_append, List.append_assoc, List.cons.injEq,
    true_and] at h
  obtain ⟨hrole, h⟩ := quoteData_append_inj h
  simp only [List.cons.injEq, true_and] at h
  obtain ⟨hsource, h⟩ := quoteData_append_inj h
  refine ⟨?_, ?_⟩
  · rw [Turn.source, Turn.source, Role.name_joined hrole, Text.joined, Text.joined, hsource]
  · simpa using h

theorem map_byte_inj {cs ds : List Code} (hc : ∀ c ∈ cs, c.toNat < 128)
    (hd : ∀ d ∈ ds, d.toNat < 128)
    (h : cs.map (fun c => UInt8.ofNat c.toNat) = ds.map fun d => UInt8.ofNat d.toNat) :
    cs = ds := by
  have hinv : ∀ l : List Code, (∀ c ∈ l, c.toNat < 128) →
      (l.map fun c => UInt8.ofNat c.toNat).map (fun b => Code.ofNat b.toNat) = l := by
    intro l hl
    rw [List.map_map]
    refine (List.map_congr_left fun c hm => ?_).trans (List.map_id l)
    have hlt := hl c hm
    simp only [Function.comp_apply, UInt8.toNat_ofNat', id_eq]
    rw [Nat.mod_eq_of_lt (by omega), Code.ofNat_toNat]
  rw [← hinv cs hc, h, hinv ds hd]

theorem historyBytes_eq (ts : List Turn) :
    historyBytes ts =
      (ts.flatMap fun t => t.transcript.toList).map fun c => UInt8.ofNat c.toNat := by
  rw [List.map_flatMap]
  rfl

theorem flatMap_transcript_inj {ts us : List Turn}
    (h : (ts.flatMap fun t => t.transcript.toList) = us.flatMap fun t => t.transcript.toList) :
    ts.map Turn.source = us.map Turn.source := by
  induction ts generalizing us with
  | nil =>
    cases us with
    | nil => rfl
    | cons u us => simp [transcript_toList] at h
  | cons t ts ih =>
    cases us with
    | nil => simp [transcript_toList] at h
    | cons u us =>
      obtain ⟨hs, hr⟩ := transcript_append_inj h
      rw [List.map_cons, List.map_cons, hs, ih hr]

/-- The bytes of a history determine its sources. -/
theorem historyBytes_inj {ts us : List Turn} (h : historyBytes ts = historyBytes us) :
    ts.map Turn.source = us.map Turn.source := by
  have hascii : ∀ ts : List Turn, ∀ x ∈ ts.flatMap fun t => t.transcript.toList,
      x.toNat < 128 := by
    intro ts x hx
    obtain ⟨t, _, hx⟩ := List.mem_flatMap.mp hx
    exact transcript_ascii t x hx
  rw [historyBytes_eq, historyBytes_eq] at h
  exact flatMap_transcript_inj (map_byte_inj (hascii ts) (hascii us) h)

theorem historyBytes_congr {ts us : List Turn} (h : ts.map Turn.source = us.map Turn.source) :
    historyBytes ts = historyBytes us := by
  have hsource : ∀ ts : List Turn, historyBytes ts = (ts.map Turn.source).flatMap fun s =>
      asciiBytes ("[" ++ quotedAscii s.1.name ++ ", " ++ quotedAscii s.2 ++ "]") := by
    intro ts
    simp only [List.flatMap_map, Turn.source, quotedAscii_joined]
    rfl
  rw [hsource, hsource, h]

theorem map_source_eq_iff {ts us : List Turn} : ts.map Turn.source = us.map Turn.source ↔
    List.Forall₂ (fun t u => t.role = u.role ∧
      t.commandSource.joined = u.commandSource.joined) ts us := by
  rw [← List.forall₂_eq_eq_eq, List.forall₂_map_left_iff, List.forall₂_map_right_iff]
  simp only [Turn.source, Prod.mk.injEq]

theorem map_source_of_apart {ts : List Turn} (h : ∀ t ∈ ts, Apart t.commandSource.toList) :
    ts.map Turn.source = ts.map fun t => (t.role, t.commandSource) :=
  List.map_congr_left fun t ht => by rw [Turn.source, (h t ht).joined_eq]

theorem flatMap_hexDigits_inj {a b : List UInt8}
    (h : (a.flatMap fun x => hexDigits 2 x.toNat) = b.flatMap fun x => hexDigits 2 x.toNat) :
    a = b := by
  induction a generalizing b with
  | nil =>
    cases b with
    | nil => rfl
    | cons y b => simp [hexDigits] at h
  | cons x a ih =>
    cases b with
    | nil => simp [hexDigits] at h
    | cons y b =>
      simp only [List.flatMap_cons] at h
      obtain ⟨hx, hr⟩ := List.append_inj h (by rw [length_hexDigits, length_hexDigits])
      have hxy := hexDigits_inj x.toNat_lt y.toNat_lt hx
      rw [UInt8.toNat_inj.mp hxy, ih hr]

theorem digest_eq_of_fingerprint_eq {a b : List UInt8} (h : fingerprint a = fingerprint b) :
    Sha256.digest a = Sha256.digest b :=
  flatMap_hexDigits_inj (Text.ofList.inj h)

theorem fingerprintsAfter_getElem? (bytes : List UInt8) (ts : List Turn) (i : Nat) :
    (fingerprintsAfter bytes ts)[i]? =
      if i < ts.length then some (fingerprint (bytes ++ historyBytes (ts.take (i + 1))))
      else none := by
  induction ts generalizing bytes i with
  | nil => simp [fingerprintsAfter]
  | cons t ts ih =>
    cases i with
    | zero => simp [fingerprintsAfter, historyBytes]
    | succ i => simp [fingerprintsAfter, ih, historyBytes]

/-- The fingerprint at an index is the one of the turns up to it. -/
theorem fingerprints_getElem? (turns : List Turn) (i : Nat) :
    (fingerprints turns)[i]? =
      if i < turns.length then some (fingerprint (historyBytes (turns.take (i + 1)))) else none := by
  simpa [fingerprints] using fingerprintsAfter_getElem? [] turns i

theorem fingerprintsAfter_take (bytes : List UInt8) (ts : List Turn) (k : Nat) :
    fingerprintsAfter bytes (ts.take k) = (fingerprintsAfter bytes ts).take k := by
  induction ts generalizing bytes k with
  | nil => simp [fingerprintsAfter]
  | cons t ts ih =>
    cases k with
    | zero => rfl
    | succ k => simp [fingerprintsAfter, ih]

/-- The fingerprint at an index is taken of the bytes of the turns up to it. Two histories have the
same bytes exactly if they agree turn by turn on the role and, with their pairs of halves joined, on the
command source; where no halves stand in pairs they agree on the command source itself. The first turns
of a history have its first fingerprints. -/
theorem fingerprints_faithful (ts us : List Turn) :
    (∀ i, (fingerprints ts)[i]? = if i < ts.length
      then some (fingerprint (historyBytes (ts.take (i + 1)))) else none) ∧
    (historyBytes ts = historyBytes us ↔ List.Forall₂ (fun t u => t.role = u.role ∧
      t.commandSource.joined = u.commandSource.joined) ts us) ∧
    ((∀ t ∈ ts ++ us, Apart t.commandSource.toList) → (historyBytes ts = historyBytes us ↔
      List.Forall₂ (fun t u => t.role = u.role ∧ t.commandSource = u.commandSource) ts us)) ∧
    ∀ k, fingerprints (ts.take k) = (fingerprints ts).take k := by
  have hbytes : historyBytes ts = historyBytes us ↔ _ :=
    ⟨historyBytes_inj, historyBytes_congr⟩
  refine ⟨fingerprints_getElem? ts, hbytes.trans map_source_eq_iff, fun hapart => ?_,
    fingerprintsAfter_take [] ts⟩
  obtain ⟨hts, hus⟩ := List.forall_mem_append.mp hapart
  rw [hbytes, map_source_of_apart hts, map_source_of_apart hus, ← List.forall₂_eq_eq_eq,
    List.forall₂_map_left_iff, List.forall₂_map_right_iff]
  simp only [Prod.mk.injEq]

end Storyworld
