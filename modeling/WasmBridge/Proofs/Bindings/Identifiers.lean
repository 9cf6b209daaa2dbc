import WasmBridge.Proofs.Bindings.Signatures

/-!
# Identifiers of arguments

An argument goes by its name in the interface. In Rust a name that is reserved is written
as a raw identifier there, and Rust takes a raw identifier for the same as the bare one.
So arguments are told apart in Rust exactly as far as their names in the interface are,
with or without the mark of a raw identifier.
-/

namespace WasmBridge

open Outcome

/-- A label that is a text stands in running text as it is, and any text is a label. -/
class LawfulLabel (ν : Type) [Label ν] : Prop where
  text?_ofText : ∀ t : Text, Label.text? (Label.ofText t : ν) = some t
  display_of_text? : ∀ {l : ν} {t : Text}, Label.text? l = some t → Label.display l = t

instance : LawfulLabel Text := ⟨fun _ => rfl, fun h => Option.some.inj h⟩

instance : LawfulLabel Value where
  text?_ofText _ := rfl
  display_of_text? := by
    intro l t h
    cases l with
    | str s => cases h; rfl
    | _ => cases h

variable {ν : Type} [Label ν] [LawfulLabel ν]

theorem display_ofText (t : Text) : Label.display (Label.ofText t : ν) = t :=
  LawfulLabel.display_of_text? (LawfulLabel.text?_ofText t)

theorem display_of_text {l : ν} {t : Text} (h : Label.text l = .ok t) : Label.display l = t := by
  unfold Label.text at h
  split at h
  · rename_i t' ht
    cases h
    exact LawfulLabel.display_of_text? ht
  · cases h

namespace Rust

theorem plainName_keyword {word : Text} (h : word ∈ keywords) : plainName word = word := by
  have hall : ∀ word ∈ keywords, plainName word = word := by decide +kernel
  exact hall word h

theorem plainName_escapeText {name ident : Text} (h : escapeText name = .ok ident) :
    plainName ident = plainName name := by
  unfold escapeText at h
  split at h
  · cases h
  · split at h
    · rename_i hkeyword
      cases h
      rw [plainName_keyword (List.contains_iff_mem.mp hkeyword)]
      rfl
    · cases h
      rfl

/-- **An identifier is the name that it is made from, with or without the mark of a raw one.** -/
theorem plainName_escape {name ident : ν} (h : escape name = .ok ident) :
    plainName (Label.display ident) = plainName (Label.display name) := by
  unfold escape at h
  split at h
  · rename_i text htext
    obtain ⟨escaped, hescaped, rfl⟩ := map_eq_ok.mp h
    rw [display_ofText, LawfulLabel.display_of_text? htext, plainName_escapeText hescaped]
  · split at h
    · cases h
      rfl
    · cases h

end Rust

theorem plainName_rustName {a : Argument ν} {name : Text} (h : rustName a = .ok name) :
    Rust.plainName name = Rust.plainName (Label.display a.name) := by
  obtain ⟨ident, hident, rfl⟩ := map_eq_ok.mp h
  exact Rust.plainName_escape hident

/-- Where only a text can stand there is the same text as where anything can. -/
theorem rustName_of_rustText {a : Argument ν} {name : Text} (h : rustText a = .ok name) :
    rustName a = .ok name := by
  obtain ⟨ident, hident, hname⟩ := bind_eq_ok.mp h
  exact map_eq_ok.mpr ⟨ident, hident, display_of_text hname⟩

/-- The arguments of a function by their names, which count with and without the mark of a raw
identifier as the same. -/
def Function.rustNames (f : Function ν) : List Text :=
  f.args.map fun a => Rust.plainName (Label.display a.name)

theorem plainNames_eq {args : List (Argument ν)} {names : List Text}
    (h : List.Forall₂ (fun a name => rustName a = .ok name) args names) :
    names.map Rust.plainName = args.map fun a => Rust.plainName (Label.display a.name) := by
  induction h with
  | nil => rfl
  | cons hname _ ih => rw [List.map_cons, List.map_cons, plainName_rustName hname, ih]

theorem rustNames_of_callArguments {f : Function ν} {names : List Text}
    (h : Rust.callArguments f = .ok names) :
    List.Forall₂ (fun a name => rustName a = .ok name) f.args names := by
  obtain ⟨identifiers, hidentifiers, htexts⟩ := bind_eq_ok.mp h
  exact (forall₂_of_mapM_mapM hidentifiers htexts).imp fun _ _ => rustName_of_rustText

end WasmBridge
