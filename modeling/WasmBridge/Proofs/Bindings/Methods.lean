import WasmBridge.Bindings.Target
import WasmBridge.Proofs.Bindings.Distinct
import WasmBridge.Proofs.Bindings.FileLines

/-!
# Methods of a host

A host in Rust has two methods for each export, and they are checked against each other
and against the methods that every host has. The check looks at the names as they stand
in the interface. In the code a name that Rust reserves is written as a raw identifier, so
another export may have just this for its name. It is the only way in which two methods
can come out alike: no reserved word ends like the name of a method on bytes, and none is
the name of a method that every host has.
-/

namespace WasmBridge

open Outcome

/-- A name as it is written in Rust, if it can be written at all. -/
def Rust.spelled (name : Text) : Text := if keywords.contains name then "r#" ++ name else name

theorem Rust.escape_eq_ok {name ident : Text} (h : escape name = .ok ident) :
    ident = spelled name := by
  obtain ⟨text, htext, rfl⟩ := map_eq_ok.mp h
  unfold escapeText at htext
  unfold spelled
  split at htext
  · cases htext
  · split at htext
    · rename_i hkeyword
      cases htext
      rw [if_pos hkeyword]
      rfl
    · rename_i hkeyword
      cases htext
      rw [if_neg hkeyword]
      rfl

namespace WasmerRuntime

open Rust

/-- The names that the methods of an export have in the code. -/
def emittedNames (f : Function Text) : List Text := [spelled f.name, rawName f]

/-- What stands in the code for an export. -/
structure DeclaresMethods (f : Function Text) (m : ExportMethods) : Prop where
  logical : ∃ params result, m.logical.head = methodHead f (spelled f.name) params result
  raw : ∃ params result, m.raw.head = methodHead f (rawName f) params result

variable {s : BindingSource Text} {exports : List (Function Text)}

theorem exportMethods_eq_ok {f : Function Text} {m : ExportMethods}
    (h : exportMethods s f = .ok m) : DeclaresMethods f m := by
  obtain ⟨name, hname, h⟩ := bind_eq_ok.mp h
  obtain ⟨params, _, h⟩ := bind_eq_ok.mp h
  obtain ⟨rawParams, _, h⟩ := bind_eq_ok.mp h
  obtain ⟨names, _, h⟩ := bind_eq_ok.mp h
  obtain ⟨result, _, h⟩ := bind_eq_ok.mp h
  obtain ⟨⟨full, raw, boundary⟩, _, h⟩ := bind_eq_ok.mp h
  obtain ⟨serialize, _, h⟩ := bind_eq_ok.mp h
  obtain ⟨hand, _, h⟩ := bind_eq_ok.mp h
  obtain ⟨crossings, _, h⟩ := bind_eq_ok.mp h
  cases h
  rw [escape_eq_ok hname]
  exact ⟨⟨_, _, rfl⟩, ⟨_, _, rfl⟩⟩

/-! ## The check -/

/-- Methods are checked as other names are, and none may be one that every host has. -/
theorem of_checkMethods {seen entries : List (Text × Text)}
    (h : checkMethods seen entries = .ok ()) :
    firstClash seen (entries.map Prod.swap) = none ∧ ∀ e ∈ entries, e.1 ∉ ownMethods := by
  induction entries generalizing seen with
  | nil => exact ⟨rfl, nofun⟩
  | cons e rest ih =>
    obtain ⟨method, function⟩ := e
    rw [checkMethods] at h
    split at h
    · cases h
    · rename_i hown
      split at h
      · cases h
      · rename_i hnew
        obtain ⟨hclash, hrest⟩ := ih h
        refine ⟨?_, List.forall_mem_cons.mpr ⟨by simpa using hown, hrest⟩⟩
        rw [List.map_cons, Prod.swap_prod_mk, firstClash, hnew]
        exact hclash

/-- **By their names in the interface, methods are apart from each other and from those that
every host has.** -/
theorem nodup_methods (h : checkMethods [] (exports.flatMap fun f =>
      (methodsOf f).map fun method => (method, Label.display f.name)) = .ok ()) :
    (ownMethods ++ exports.flatMap methodsOf).Nodup := by
  obtain ⟨hclash, hown⟩ := of_checkMethods h
  have hnodup := (firstClash_eq_none hclash).1
  have hnames : (exports.flatMap fun f =>
      (methodsOf f).map fun method => (method, Label.display f.name)).map (·.1)
        = exports.flatMap methodsOf := by
    simp only [List.map_flatMap, List.map_map, Function.comp_def, List.map_id']
  rw [List.map_map, show Prod.snd ∘ Prod.swap = (Prod.fst : Text × Text → Text) from rfl,
    hnames] at hnodup
  refine List.nodup_append.mpr ⟨by decide, hnodup, fun own hmem method hmethod => ?_⟩
  rw [← hnames] at hmethod
  obtain ⟨e, he, rfl⟩ := List.mem_map.mp hmethod
  rintro rfl
  exact hown e he hmem

/-! ## The code -/

/-- Reserved words, raw or not, are neither methods that every host has nor methods on bytes. -/
theorem of_mem_keywords {word : Text} (h : word ∈ keywords) :
    (word ∉ ownMethods ∧ ¬("_raw" : Text) <:+ word)
      ∧ "r#" ++ word ∉ ownMethods ∧ ¬("_raw" : Text) <:+ "r#" ++ word := by
  have hall : ∀ word ∈ keywords, (word ∉ ownMethods ∧ ¬("_raw" : Text) <:+ word)
      ∧ "r#" ++ word ∉ ownMethods ∧ ¬("_raw" : Text) <:+ "r#" ++ word := by decide +kernel
  exact hall word h

/-- Such a word is a method only as the name of an export. -/
theorem mem_methods_iff {word : Text} (hown : word ∉ ownMethods)
    (hraw : ¬("_raw" : Text) <:+ word) :
    word ∈ ownMethods ++ exports.flatMap methodsOf ↔ word ∈ exports.map (·.name) := by
  rw [List.mem_append, or_iff_right hown, List.mem_flatMap, List.mem_map]
  refine exists_congr fun f => and_congr_right fun _ => ?_
  have hne : word ≠ rawName f := by
    rintro rfl
    exact hraw (List.suffix_append _ _)
  rw [methodsOf, List.mem_pair, or_iff_left hne]
  exact eq_comm

theorem spelled_of_not_mem {name : Text} (h : name ∉ keywords) : spelled name = name :=
  if_neg (by simpa using h)

theorem spelled_of_mem {name : Text} (h : name ∈ keywords) : spelled name = "r#" ++ name :=
  if_pos (by simpa using h)

/-- The names in the code are those of the interface, spelled. -/
theorem emitted_eq : ownMethods ++ exports.flatMap emittedNames
    = (ownMethods ++ exports.flatMap methodsOf).map spelled := by
  have hown : ownMethods.map spelled = ownMethods := by decide +kernel
  have hexport : ∀ f : Function Text, (methodsOf f).map spelled = emittedNames f := by
    intro f
    have hraw : rawName f ∉ keywords := fun h => (of_mem_keywords h).1.2 (List.suffix_append _ _)
    rw [methodsOf, List.map_cons, List.map_singleton, spelled_of_not_mem hraw]
    rfl
  rw [List.map_append, hown, List.map_flatMap]
  simp only [hexport]

/-- Two names that are spelled alike are a reserved word and that word as a raw identifier. -/
theorem spelled_eq_iff {a b : Text} : spelled a = spelled b ↔
    a = b ∨ (a ∈ keywords ∧ b = "r#" ++ a) ∨ (b ∈ keywords ∧ a = "r#" ++ b) := by
  have hraw : ∀ word ∈ keywords, "r#" ++ word ∉ keywords := by decide +kernel
  constructor
  · intro h
    by_cases ha : a ∈ keywords
    · rw [spelled_of_mem ha] at h
      by_cases hb : b ∈ keywords
      · rw [spelled_of_mem hb] at h
        exact .inl (List.append_cancel_left h)
      · rw [spelled_of_not_mem hb] at h
        exact .inr (.inl ⟨ha, h.symm⟩)
    · rw [spelled_of_not_mem ha] at h
      by_cases hb : b ∈ keywords
      · rw [spelled_of_mem hb] at h
        exact .inr (.inr ⟨hb, h⟩)
      · rw [spelled_of_not_mem hb] at h
        exact .inl h
  · rintro (rfl | ⟨ha, rfl⟩ | ⟨hb, rfl⟩)
    · rfl
    · rw [spelled_of_mem ha, spelled_of_not_mem (hraw a ha)]
    · rw [spelled_of_mem hb, spelled_of_not_mem (hraw b hb)]

/-- **Methods that have been checked come out apart unless one export goes by a reserved word and
another one by that word as a raw identifier.** -/
theorem nodup_emitted_iff (h : (ownMethods ++ exports.flatMap methodsOf).Nodup) :
    (ownMethods ++ exports.flatMap emittedNames).Nodup
      ↔ ∀ word ∈ keywords, word ∈ exports.map (·.name) → "r#" ++ word ∉ exports.map (·.name) := by
  rw [emitted_eq, List.nodup_map_iff_inj_on h]
  have hmem : ∀ word ∈ keywords,
      (word ∈ ownMethods ++ exports.flatMap methodsOf ↔ word ∈ exports.map (·.name))
        ∧ ("r#" ++ word ∈ ownMethods ++ exports.flatMap methodsOf
            ↔ "r#" ++ word ∈ exports.map (·.name)) := by
    intro word hword
    obtain ⟨⟨hown, hraw⟩, hown', hraw'⟩ := of_mem_keywords hword
    exact ⟨mem_methods_iff hown hraw, mem_methods_iff hown' hraw'⟩
  constructor
  · intro hinj word hword hplain hrawWord
    have hplain := (hmem word hword).1.mpr hplain
    have hrawWord := (hmem word hword).2.mpr hrawWord
    have heq := hinj word hplain _ hrawWord (spelled_eq_iff.mpr (.inr (.inl ⟨hword, rfl⟩)))
    -- a raw identifier is longer than the word
    have hlength := congrArg List.length heq
    rw [List.length_append] at hlength
    exact absurd hlength (by simp [Text.ofString])
  · intro hclear a ha b hb hspelled
    rcases spelled_eq_iff.mp hspelled with rfl | ⟨hword, rfl⟩ | ⟨hword, rfl⟩
    · rfl
    · exact absurd ((hmem a hword).2.mp hb) (hclear a hword ((hmem a hword).1.mp ha))
    · exact absurd ((hmem b hword).2.mp ha) (hclear b hword ((hmem b hword).1.mp hb))

/-- The methods of a host, as far as its code is concerned. -/
structure MethodsApart (s : BindingSource Text) (files : List (Text × Text)) : Prop where
  checked : (ownMethods ++ s.exports.toList.flatMap methodsOf).Nodup
  emitted : ∃ fs : Functions, (("bindings.rs" : Text), functionsFile fs) ∈ files
    ∧ StandIn (fs.exports.flatMap fun m => Lines.blank :: Lines.nested m.lines) (functionsFile fs)
    ∧ List.Forall₂ DeclaresMethods s.exports.toList fs.exports
  apart_iff : (ownMethods ++ s.exports.toList.flatMap emittedNames).Nodup
    ↔ ∀ word ∈ keywords, word ∈ s.exports.names → "r#" ++ word ∉ s.exports.names

theorem methodsApart_of_files {files : List (Text × Text)}
    (h : s.files .wasmerRuntime = .ok files) : MethodsApart s files := by
  obtain ⟨b, hb, rfl⟩ := map_eq_ok.mp h
  obtain ⟨rust, htypes, hb⟩ := bind_eq_ok.mp hb
  obtain ⟨fs, hfs, hb⟩ := bind_eq_ok.mp hb
  cases hb
  obtain ⟨_, _, htypes⟩ := bind_eq_ok.mp htypes
  obtain ⟨_, hmethods, _⟩ := bind_eq_ok.mp htypes
  obtain ⟨exports, hexports, hfs⟩ := bind_eq_ok.mp hfs
  obtain ⟨imports, _, hfs⟩ := bind_eq_ok.mp hfs
  cases hfs
  have hchecked := nodup_methods hmethods
  refine ⟨hchecked, ⟨_, List.mem_cons_of_mem _ List.mem_cons_self, standIn_methods _, ?_⟩,
    nodup_emitted_iff hchecked⟩
  exact (mapM_eq_ok_iff.mp hexports).imp fun f m hm => exportMethods_eq_ok hm

end WasmerRuntime

end WasmBridge
