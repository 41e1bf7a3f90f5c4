import Oclob.Lib.Checked

/-!
# Readers that match a code

A reader takes values off the front of a text and leaves the rest. `Reads` says that it accepts
exactly the code words of a code: whatever it returns was written there, and every code word is
read back. The rules follow the readers' statements, so a reader of many fields is matched with
the concatenation of their codes one field at a time.
-/

namespace Oclob.Lib

variable {ε α β γ : Type}

/-- The reader accepts the code words of `code`, for the values with `P`, and nothing else. -/
structure Reads (reader : EStateM ε (List γ) α) (code : α → List γ) (P : α → Prop) : Prop where
  sound : ∀ {text a rest}, reader.run text = .ok a rest → P a ∧ text = code a ++ rest
  complete : ∀ {a} rest, P a → reader.run (code a ++ rest) = .ok a rest

namespace Reads

variable {reader : EStateM ε (List γ) α} {code : α → List γ} {P : α → Prop}

/-- A value that is known already is read off the empty text. -/
theorem pure (a : α) : Reads (Pure.pure a : EStateM ε (List γ) α) (fun _ => []) (· = a) where
  sound h := by
    obtain ⟨rfl, rfl⟩ := run_pure_eq_ok.mp h
    exact ⟨rfl, rfl⟩
  complete rest h := by
    subst h
    rfl

/-- A field of the value, then the rest of it. -/
theorem bind {next : α → EStateM ε (List γ) β} (field : β → α) {code' : β → List γ} {Q : β → Prop}
    (hread : Reads reader code P)
    (hnext : ∀ a, P a → Reads (next a) code' fun b => Q b ∧ field b = a)
    (hfield : ∀ b, Q b → P (field b)) :
    Reads (reader >>= next) (fun b => code (field b) ++ code' b) Q where
  sound h := by
    obtain ⟨a, middle, hfirst, hrest⟩ := run_bind_eq_ok.mp h
    obtain ⟨ha, rfl⟩ := hread.sound hfirst
    obtain ⟨⟨hb, rfl⟩, rfl⟩ := (hnext a ha).sound hrest
    exact ⟨hb, (List.append_assoc ..).symm⟩
  complete rest hb := by
    rw [List.append_assoc, run_bind_of_ok _ _ _ _ (hread.complete _ (hfield _ hb))]
    exact (hnext _ (hfield _ hb)).complete rest ⟨hb, rfl⟩

/-- The same code, written differently. -/
theorem congr {code' : α → List γ} {Q : α → Prop} (h : Reads reader code P)
    (hcode : ∀ a, P a → code' a = code a) (hP : ∀ a, P a ↔ Q a) : Reads reader code' Q where
  sound hrun := by
    obtain ⟨ha, rfl⟩ := h.sound hrun
    exact ⟨(hP _).mp ha, by rw [hcode _ ha]⟩
  complete rest ha := by
    rw [hcode _ ((hP _).mpr ha)]
    exact h.complete rest ((hP _).mpr ha)

/-- A value computed from what was read, by a function that undoes `back`. -/
theorem decode {decode : α → Except ε β} {back : β → α} {Q : β → Prop} (h : Reads reader code P)
    (hdecode : ∀ a b, P a → (decode a = .ok b ↔ Q b ∧ back b = a)) (hback : ∀ b, Q b → P (back b)) :
    Reads (reader >>= fun a => attempt (decode a)) (fun b => code (back b)) Q where
  sound hrun := by
    obtain ⟨a, rest, hread, hlast⟩ := run_bind_eq_ok.mp hrun
    obtain ⟨ha, rfl⟩ := h.sound hread
    obtain ⟨hb, rfl⟩ := run_attempt_eq_ok.mp hlast
    obtain ⟨hQ, rfl⟩ := (hdecode a _ ha).mp hb
    exact ⟨hQ, rfl⟩
  complete rest hQ := by
    rw [run_bind_of_ok _ _ _ _ (h.complete rest (hback _ hQ))]
    exact run_attempt_eq_ok.mpr ⟨(hdecode _ _ (hback _ hQ)).mpr ⟨hQ, rfl⟩, rfl⟩

end Reads

/-- A text that a reader takes whole: it is a code word, and code words are taken whole. -/
theorem Reads.run_eq_nil {reader : EStateM ε (List γ) α} {code : α → List γ} {P : α → Prop}
    (h : Reads reader code P) {text : List γ} {a : α} :
    reader.run text = .ok a [] ↔ P a ∧ text = code a := by
  constructor
  · intro hrun
    obtain ⟨ha, htext⟩ := h.sound hrun
    exact ⟨ha, htext.trans (List.append_nil _)⟩
  · rintro ⟨ha, rfl⟩
    have hrun := h.complete [] ha
    rwa [List.append_nil] at hrun

end Oclob.Lib
