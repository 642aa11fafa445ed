import SecondFactor.Otp.Secret
import SecondFactor.Proofs.Json.Fitting

/-!
# The stored form of a secret

A secret whose numbers are within their widths survives being written and read, and whatever is
read as a secret has its numbers within their widths. So the width of a number has to be looked at
only where a secret is changed, not where it is sealed and opened.

## The architecture

* **`rows`** — the stored form as rows of a record: name, shape, value, and what it spells.
* **`ofBytes_bytes`** — what was written is read back.
* **`bounded_of_ofBytes`** — what is read is bounded, by whomever it was written.
-/

namespace SecondFactor.Otp

theorem Algorithm.ofName?_name (a : Algorithm) : ofName? a.name = some a := by cases a <;> decide

theorem Algorithm.name_mem (a : Algorithm) : a.name ∈ all.map name := by cases a <;> decide

namespace Secret

open Json (Row Rows Spells)

/-- The stored form by rows. -/
def rows (s : Secret) : List Row :=
  [⟨"account", .text, .text s.account, .text s.account⟩,
   ⟨"issuer", .text, .text s.issuer, .text s.issuer⟩,
   ⟨"algorithm", .choice (Algorithm.all.map Algorithm.name), .text s.algorithm.name,
     .choice s.algorithm.name⟩,
   ⟨"digits", .word wordBound, .number s.digits, .word s.digits⟩,
   ⟨"step", .word wordBound, .number s.step, .word s.step⟩,
   ⟨"skew", .word UInt8.size, .number s.skew, .word s.skew⟩,
   ⟨"secret", .text, .text s.key, .text s.key⟩,
   ⟨"counter", .word wordBound, .number s.counter, .word s.counter⟩,
   ⟨"used_steps", .words wordBound,
     .list (s.usedSteps.map fun (t : Nat) => Json.Scalar.number t), .words s.usedSteps⟩,
   ⟨"attempt_step", .word wordBound, .number s.attemptStep, .word s.attemptStep⟩,
   ⟨"attempts_in_step", .word UInt32.size, .number s.attemptsInStep, .word s.attemptsInStep⟩]

theorem nodup_fields : (fields.map Prod.fst).Nodup := by decide

/-- The values of a bounded secret spell what they stand for. -/
theorem rows_spell {s : Secret} (h : s.Bounded) : Rows s.rows := by
  obtain ⟨hdigits, hstep, hskew, hcounter, hused, hattempt, hattempts⟩ := h
  have hword : wordBound ≤ UInt64.size := Nat.le_refl _
  have hbyte : UInt8.size ≤ UInt64.size := by decide
  have hhalf : UInt32.size ≤ UInt64.size := by decide
  refine ⟨?_, show (fields.map Prod.fst).Nodup from nodup_fields⟩
  simp only [rows, List.forall_mem_cons]
  exact ⟨.text _, .text _, .choice s.algorithm.name_mem, .word hdigits hword, .word hstep hword,
    .word hskew hbyte, .text _, .word hcounter hword, .words hused hword, .word hattempt hword,
    .word hattempts hhalf, by simp⟩

/-- **A stored secret is read back** as it was. The bounds are those of the stored numbers; texts
may be any. -/
theorem ofBytes_bytes {s : Secret} (h : s.Bounded) : ofBytes s.bytes = .ok s := by
  have hread : Json.decodeRecord fields s.bytes = .ok (s.rows.map Row.datum) :=
    Json.decodeRecord_bytes (rows_spell h)
  rw [ofBytes, hread]
  simp [rows, ofData?, Algorithm.ofName?_name, bind, Except.bind, pure, Except.pure]

/-- What is read into a secret is what the rows of the secret stand for. With `rows_spell` this
turns the question of what is read into one of what is written. -/
theorem data_of_ofData? {ds : List Json.Datum} {s : Secret} (h : ofData? ds = some s) :
    ds = s.rows.map Row.datum := by
  unfold ofData? at h
  split at h
  · rename_i account issuer algorithm digits step skew key counter used attempt attempts
    obtain ⟨a, ha, h⟩ := Option.bind_eq_some_iff.1 h
    cases h
    have hname : a.name = algorithm := by simpa using List.find?_some ha
    simp [rows, hname]
  · cases h

/-- **A secret that was read is bounded**, whatever the document was. What is opened can therefore
be stored again. -/
theorem bounded_of_ofBytes {document : Bytes} {s : Secret} (h : ofBytes document = .ok s) :
    s.Bounded := by
  obtain ⟨ds, hds, h⟩ := bind_eq_ok.1 h
  have hfits := Json.fits_of_decodeRecord nodup_fields hds
  cases hdata : ofData? ds with
  | none => simp [hdata, throw, throwThe, MonadExceptOf.throw] at h
  | some t =>
    have ht : t = s := by simpa [hdata, pure, Except.pure] using h
    subst ht
    rw [data_of_ofData? hdata] at hfits
    simp only [fields, rows, List.map_cons, List.map_nil, List.forall₂_cons, Json.Fits] at hfits
    obtain ⟨-, -, -, hdigits, hstep, hskew, -, hcounter, hused, hattempt, hattempts, -⟩ := hfits
    exact ⟨hdigits, hstep, hskew, hcounter, hused, hattempt, hattempts⟩

end Secret

end SecondFactor.Otp
