import MappedTrace.Proofs.SourceMap.Sections
import MappedTrace.SourceMap.Decode

/-!
# What is decoded

Bytes that are accepted spell a document, and the map they give has the shape of that document: for
every plain map in it there is a layout that holds its mappings, and its tokens are in order. Whatever
a lookup finds is one of the tokens of one of these plain maps.
-/

namespace MappedTrace

namespace Sectioned

variable {α : Type}

mutual

def contents : Sectioned α → List α
  | .whole content => [content]
  | .parts sections => contentsOf sections

def contentsOf : List (SourceMap.Place × Sectioned α) → List α
  | [] => []
  | (_, part) :: rest => part.contents ++ contentsOf rest

end

@[simp] theorem contents_whole (content : α) : (whole content).contents = [content] := by
  rw [contents]

theorem mem_contentsOf_iff {sections : List (SourceMap.Place × Sectioned α)} {content : α} :
    content ∈ contentsOf sections ↔ ∃ entry ∈ sections, content ∈ entry.2.contents := by
  induction sections with
  | nil => simp [contentsOf]
  | cons entry rest ih => simp [contentsOf, ih]

theorem mem_contents_parts_iff {sections : List (SourceMap.Place × Sectioned α)} {content : α} :
    content ∈ (parts sections).contents ↔ ∃ entry ∈ sections, content ∈ entry.2.contents := by
  rw [contents, mem_contentsOf_iff]

end Sectioned

namespace SourceMap

section

variable {ε α β : Type} {result : Except ε α} {value : β}

theorem bind_eq_ok_iff {next : α → Except ε β} :
    result >>= next = .ok value ↔ ∃ first, result = .ok first ∧ next first = .ok value := by
  cases result <;> simp [bind, Except.bind]

theorem map_eq_ok_iff {f : α → β} :
    result.map f = .ok value ↔ ∃ first, result = .ok first ∧ f first = value := by
  cases result <;> simp [Except.map]

end

variable {bytes : List UInt8} {map : SourceMap}

/-- The document that bytes spell behind the line that is skipped. -/
def spelled? (bytes : List UInt8) : Option Document :=
  (dropJunk bytes).toOption.bind document?

theorem ofBytes_eq_ok_iff :
    ofBytes bytes = .ok map ↔
      ∃ document, spelled? bytes = some document ∧ document.decode = .ok map := by
  unfold ofBytes spelled?
  cases dropJunk bytes with
  | error fault => simp [bind, Except.bind, Except.toOption]
  | ok rest =>
    simp only [bind, Except.bind, Except.toOption, Option.bind_some]
    cases document? rest with
    | none => simp
    | some document => simp

def plainTokens? (bytes : List UInt8) : Option (List Token) :=
  match ofBytes bytes with
  | .ok (.whole tokens) => some tokens
  | _ => none

theorem plainTokens?_eq_some_iff {tokens : List Token} :
    plainTokens? bytes = some tokens ↔ ofBytes bytes = .ok (.whole tokens) := by
  unfold plainTokens?
  split
  · rename_i found heq
    simp [heq]
  · rename_i hother
    simpa using hother tokens

theorem Layout.tokens_eq_ok_iff {layout : Layout} {tokens : List Token} :
    layout.tokens = .ok tokens ↔
      ∃ written,
        layout.tokensFrom 0 Totals.zero
            ((Utf8.byteChars (Utf8.encode layout.rangeMappings)).splitOn ';')
            ((Utf8.byteChars (Utf8.encode layout.mappings)).splitOn ';') = .ok written ∧
          Place.sort Token.place written = tokens :=
  map_eq_ok_iff

theorem Layout.ordered_tokens {layout : Layout} {tokens : List Token}
    (h : layout.tokens = .ok tokens) : Place.Ordered Token.place tokens := by
  obtain ⟨written, -, rfl⟩ := tokens_eq_ok_iff.mp h
  rw [Place.sort_eq_insertionSort]
  exact List.pairwise_insertionSort (Place.NoLater Token.place) written

namespace Document

theorem decodeSections_cons_eq_ok {start : Place} {document : Document}
    {rest : List (Place × Document)} {maps : List (Place × SourceMap)}
    (h : decodeSections ((start, document) :: rest) = .ok maps) :
    ∃ first others, document.decode = .ok first ∧ decodeSections rest = .ok others ∧
      maps = (start, first) :: others := by
  rw [decodeSections] at h
  obtain ⟨first, hfirst, h⟩ := bind_eq_ok_iff.mp h
  obtain ⟨others, hothers, h⟩ := bind_eq_ok_iff.mp h
  exact ⟨first, others, hfirst, hothers, (Except.ok.inj h).symm⟩

mutual

/-- Every plain map in what a document decodes to is made from a layout of that document. -/
theorem exists_layout (document : Document) {map : SourceMap} (h : document.decode = .ok map)
    {tokens : List Token} (hmem : tokens ∈ map.contents) :
    ∃ layout ∈ document.contents, layout.tokens = .ok tokens := by
  cases document with
  | whole layout =>
    rw [decode] at h
    obtain ⟨made, hmade, rfl⟩ := map_eq_ok_iff.mp h
    rw [Sectioned.contents_whole, List.mem_singleton] at hmem
    exact ⟨layout, by simp, hmem ▸ hmade⟩
  | parts sections =>
    rw [decode] at h
    obtain ⟨maps, hmaps, rfl⟩ := map_eq_ok_iff.mp h
    obtain ⟨entry, hentry, hinside⟩ := Sectioned.mem_contents_parts_iff.mp hmem
    rw [Place.sort_eq_insertionSort, List.mem_insertionSort] at hentry
    obtain ⟨part, hpart, layout, hlayout, hmade⟩ :=
      exists_layout_of_section sections hmaps hentry hinside
    exact ⟨layout, Sectioned.mem_contents_parts_iff.mpr ⟨part, hpart, hlayout⟩, hmade⟩

theorem exists_layout_of_section (sections : List (Place × Document))
    {maps : List (Place × SourceMap)} (h : decodeSections sections = .ok maps)
    {entry : Place × SourceMap} (hentry : entry ∈ maps) {tokens : List Token}
    (hmem : tokens ∈ entry.2.contents) :
    ∃ part ∈ sections, ∃ layout ∈ part.2.contents, layout.tokens = .ok tokens := by
  match sections with
  | [] =>
    rw [decodeSections] at h
    obtain rfl := Except.ok.inj h
    cases hentry
  | (start, document) :: rest =>
    obtain ⟨first, others, hfirst, hothers, rfl⟩ := decodeSections_cons_eq_ok h
    rcases List.mem_cons.mp hentry with rfl | hrest
    · exact ⟨(start, document), List.mem_cons_self, exists_layout document hfirst hmem⟩
    · obtain ⟨part, hpart, hfound⟩ := exists_layout_of_section rest hothers hrest hmem
      exact ⟨part, List.mem_cons_of_mem _ hpart, hfound⟩

end

end Document

theorem ordered_of_ofBytes {tokens : List Token} (h : ofBytes bytes = .ok (.whole tokens)) :
    Place.Ordered Token.place tokens := by
  obtain ⟨document, -, hdecode⟩ := ofBytes_eq_ok_iff.mp h
  have hmem : tokens ∈ (Sectioned.whole tokens).contents := by simp
  obtain ⟨layout, -, htokens⟩ := document.exists_layout hdecode hmem
  exact layout.ordered_tokens htokens

mutual

/-- What a lookup finds is one of the tokens of a plain map, with its origin moved along if it
stands for a range. -/
theorem exists_token (map : SourceMap) {place : Place} {token : Token}
    (h : token? map place = some token) :
    ∃ tokens ∈ map.contents, ∃ found ∈ tokens, ∃ column, token = found.advanced column := by
  cases map with
  | whole tokens =>
    rw [token?, Token.closest?] at h
    obtain ⟨found, hfound, rfl⟩ := Option.map_eq_some_iff.mp h
    exact ⟨tokens, by simp, found, (Place.mem_of_closest? hfound).1, _,
      rfl⟩
  | parts sections =>
    rw [token?_parts] at h
    obtain ⟨entry, hentry, hinner⟩ := Option.bind_eq_some_iff.mp h
    have hmem := (Place.mem_of_closest? hentry).1
    obtain ⟨tokens, htokens, hfound⟩ := exists_token_of_section sections entry hmem hinner
    exact ⟨tokens, Sectioned.mem_contents_parts_iff.mpr ⟨entry, hmem, htokens⟩, hfound⟩

theorem exists_token_of_section (sections : List (Place × SourceMap)) (entry : Place × SourceMap)
    (hmem : entry ∈ sections) {place : Place} {token : Token}
    (h : token? entry.2 place = some token) :
    ∃ tokens ∈ entry.2.contents, ∃ found ∈ tokens, ∃ column, token = found.advanced column := by
  match sections with
  | [] => cases hmem
  | (start, map) :: rest =>
    rcases List.mem_cons.mp hmem with hfirst | hrest
    · rw [hfirst] at h ⊢
      exact exists_token map h
    · exact exists_token_of_section rest entry hrest h

end

end SourceMap

end MappedTrace
