import Patchbay.Proofs.Token.RoundTrip

/-!
# Tokens are written again

What is read from the token of a value is not always that value, since a text shows no sign of zero; but
it is written as the same token.

* **`Codec.Repeats`** is what one codec does for one value: the value that it reads from its own payload
  has the same payload.
* **`Registry.builtin_repeats`** — the result, said of tokens that are read by their own tags.
-/

namespace Patchbay

/-! ## Codecs -/

/-- A codec repeats the payload of a value: it writes the payload again for what it reads from it. -/
structure Codec.Repeats (c : Codec) (v : Value) : Prop where
  accepts : c.accepts v = true
  valid : c.valid v = true
  payload : ∃ s w, c.write v = .ok s ∧ c.read s = .ok w ∧ c.accepts w = true ∧ c.valid w = true ∧
    c.write w = .ok s

theorem Codec.Returns.repeats {c : Codec} {v : Value} (h : c.Returns v) : c.Repeats v := by
  obtain ⟨s, w, hwrite, hread, haccepts, hvalid, -, hagain⟩ := h.payload
  exact ⟨h.accepts, h.valid, s, w, hwrite, hread, haccepts, hvalid, hagain⟩

/-! ## The built-in registry -/

namespace Registry

/-- Whoever reads the token of a value by its tag gets a value of the same codec with the same token. -/
def Repeats (r : Registry) (v : Value) : Prop :=
  ∃ c token w, r.forValue? v = some c ∧ c.serialize v = .ok token ∧
    (r.tryDecode (.str token)).value = (true, w) ∧ r.forValue? w = some c ∧
    c.serialize w = .ok token

theorem repeats_of_codec {c : Codec} (hc : c ∈ Codec.builtins.map Prod.fst) {v : Value}
    (h : c.Repeats v) : builtin.Repeats v := by
  obtain ⟨s, w, hwrite, hread, haccepts, hvalid, hagain⟩ := h.payload
  have hserialize : ∀ {u : Value}, c.accepts u = true → c.valid u = true → c.write u = .ok s →
      c.serialize u = .ok (c.tag ++ ":" ++ s) := by
    intro u haccepts hvalid hwrite
    simp [Codec.serialize, haccepts, hvalid, hwrite]
  refine ⟨c, c.tag ++ ":" ++ s, w, builtin_forValue? hc h.accepts, hserialize h.accepts h.valid hwrite,
    ?_, builtin_forValue? hc haccepts, hserialize haccepts hvalid hagain⟩
  rw [(deserialize_token hc hread hvalid).2, Logged.value_pure]

/-- **Values that lose nothing in a token have the same token again after it was read.** -/
theorem builtin_repeats {v : Value} (hv : Tokenizable v) (hwritable : Writable v) :
    builtin.Repeats v := by
  obtain ⟨c, hc, h⟩ := hv.exists_returns hwritable
  exact repeats_of_codec hc h.repeats

end Registry

end Patchbay
