import StayConnect.Erasure.Entry

/-!
# Files of the ledger

A file is its complete lines and what is left after the last newline (`lines_unlines`). Reading it gives the entries of the lines as
long as they continue the chain; the entries of a file that is cut to them are the same, and writing the lines of a continuation after
them adds its entries (`parseChain_append`).
-/

namespace StayConnect.Erasure
open Framing (Bytes)

variable {c : Codec}

def unlines (ls : List Bytes) : Bytes := ls.flatMap fun l => l ++ ['\n']

lemma unlines_cons (l : Bytes) (ls : List Bytes) : unlines (l :: ls) = l ++ '\n' :: unlines ls := by
  simp [unlines]

lemma unlines_append (ls ls' : List Bytes) : unlines (ls ++ ls') = unlines ls ++ unlines ls' := List.flatMap_append

lemma length_unlines (ls : List Bytes) : (unlines ls).length = (ls.map fun l => l.length + 1).sum := by
  simp [unlines, List.length_flatMap]

lemma encode_eq (es : List Entry) : encode c es = unlines (es.map c.line) := by
  simp [encode, unlines, List.flatMap_map]

lemma unlines_lines (data : Bytes) : unlines (lines data).1 ++ (lines data).2 = data := by
  induction data with
  | nil => rfl
  | cons ch rest ih =>
    unfold lines
    simp only
    split
    next newline => rw [unlines_cons, newline, List.nil_append, List.cons_append, ih]
    · cases ls : (lines rest).1 with
      | nil =>
        rw [ls] at ih
        exact congrArg (ch :: ·) ih
      | cons l more =>
        rw [ls] at ih
        rw [unlines_cons] at ih ⊢
        exact congrArg (ch :: ·) ih

variable {ls : List Bytes} {prev : Option Entry}

lemma lines_unlines (h : ∀ l ∈ ls, '\n' ∉ l) (t : Bytes) : lines (unlines ls ++ t) = (ls ++ (lines t).1, (lines t).2) := by
  induction ls with
  | nil => rfl
  | cons l ls ih =>
    have rest := ih fun x hx => h x (List.mem_cons_of_mem _ hx)
    rw [unlines_cons]
    -- along the characters of the first line
    have line : ∀ l : Bytes, '\n' ∉ l →
        lines (l ++ '\n' :: (unlines ls ++ t)) = (l :: (ls ++ (lines t).1), (lines t).2) := by
      intro l clean
      induction l with
      | nil =>
        rw [List.nil_append, lines, rest]
        simp
      | cons ch l ih =>
        obtain ⟨first, others⟩ : ch ≠ '\n' ∧ '\n' ∉ l := by simpa [eq_comm] using clean
        rw [List.cons_append, lines, ih others]
        simp [first]
    simpa using line l (h l List.mem_cons_self)

lemma newline_notMem_lines (data : Bytes) : (∀ l ∈ (lines data).1, '\n' ∉ l) ∧ '\n' ∉ (lines data).2 := by
  induction data with
  | nil => simp [lines]
  | cons ch rest ih =>
    obtain ⟨all, torn⟩ := ih
    unfold lines
    simp only
    split
    · exact ⟨by simpa using all, torn⟩
    next differs =>
      cases ls : (lines rest).1 with
      | nil => exact ⟨by simp, by simpa [eq_comm, differs] using torn⟩
      | cons l more =>
        rw [ls] at all
        refine ⟨fun x hx => ?_, torn⟩
        rcases List.mem_cons.mp hx with rfl | hx
        · have := all l List.mem_cons_self
          simpa [eq_comm, differs] using this
        · exact all x (List.mem_cons_of_mem _ hx)

lemma parseLines_append {n} (ls' : List Bytes) (ok : (parseLines c prev n ls).2 = none) :
    parseLines c prev n (ls ++ ls') = let rest := parseLines c ((parseLines c prev n ls).1.getLast?.or prev) (n + ls.length) ls'
      ((parseLines c prev n ls).1 ++ rest.1, rest.2) := by
  induction ls generalizing prev n with
  | nil => simp [parseLines]
  | cons l ls ih =>
    unfold parseLines at ok
    rw [List.cons_append]
    cases decoded : c.decode l with
    | none => simp [decoded] at ok
    | some e =>
      cases linked : checkLink c prev e with
      | some err => simp [decoded, linked] at ok
      | none =>
        simp only [decoded, linked] at ok
        have rest := ih ok
        have last : ((e :: (parseLines c (some e) (n + 1) ls).1).getLast?.or prev) =
            (parseLines c (some e) (n + 1) ls).1.getLast?.or (some e) := by
          cases (parseLines c (some e) (n + 1) ls).1 with
          | nil => rfl
          | cons y ys => rw [List.getLast?_cons_cons, List.getLast?_cons]; rfl
        simp only [parseLines, decoded, linked, rest, last, List.length_cons, List.cons_append]
        rw [show n + (ls.length + 1) = n + 1 + ls.length by omega]

lemma parseLines_map_line {es} (h : Continues c prev es) (n : Nat) : parseLines c prev n (es.map c.line) = (es, none) := by
  induction es generalizing prev n with
  | nil => rfl
  | cons e es ih =>
    rw [List.map_cons, parseLines, c.decode_line]
    simp only [h.1, ih h.2]

lemma length_parseLines {n} (ok : (parseLines c prev n ls).2 = none) : (parseLines c prev n ls).1.length = ls.length := by
  induction ls generalizing prev n with
  | nil => rfl
  | cons l ls ih =>
    unfold parseLines at ok ⊢
    cases decoded : c.decode l with
    | none => simp [decoded] at ok
    | some e =>
      cases linked : checkLink c prev e with
      | some err => simp [decoded, linked] at ok
      | none =>
        simp only [decoded, linked] at ok ⊢
        simp [ih ok]

variable {data : Bytes}

section
variable (ok : (parseChain c data).err = none)
include ok

lemma validBytes_eq : (parseChain c data).validBytes = (unlines (lines data).1).length := by
  change (((lines data).1.take (parseLines c none 1 (lines data).1).1.length).map fun l => l.length + 1).sum = _
  rw [length_parseLines ok, List.take_length, length_unlines]

lemma take_validBytes : data.take (parseChain c data).validBytes = unlines (lines data).1 := by
  rw [validBytes_eq ok]
  nth_rewrite 2 [← unlines_lines data]
  rw [List.take_append_of_le_length (Nat.le_refl _), List.take_length]

lemma take_validBytes_whole (whole : (parseChain c data).torn = false) : data.take (parseChain c data).validBytes = data := by
  have rest : (lines data).2 = [] := by
    change ((parseLines c none 1 (lines data).1).2.isNone && !(lines data).2.isEmpty) = false at whole
    rw [show (parseLines c none 1 (lines data).1).2 = none from ok] at whole
    simpa using whole
  rw [take_validBytes ok]
  conv_rhs => rw [← unlines_lines data, rest, List.append_nil]

lemma parseChain_append {next} (continues : Chain c ((parseChain c data).entries ++ next)) :
    (parseChain c (data.take (parseChain c data).validBytes ++ encode c next)).entries = (parseChain c data).entries ++ next ∧
    (parseChain c (data.take (parseChain c data).validBytes ++ encode c next)).err = none ∧
    (parseChain c (data.take (parseChain c data).validBytes ++ encode c next)).torn = false := by
  have newlines : ∀ l ∈ (lines data).1 ++ next.map c.line, '\n' ∉ l := by
    intro l hl
    rcases List.mem_append.mp hl with old | new
    · exact (newline_notMem_lines data).1 l old
    · obtain ⟨e, -, rfl⟩ := List.mem_map.mp new
      exact c.line_complete e
  have read : lines (data.take (parseChain c data).validBytes ++ encode c next) = ((lines data).1 ++ next.map c.line, []) := by
    rw [take_validBytes ok, encode_eq, ← unlines_append]
    simpa [lines] using lines_unlines newlines []
  have parsed : parseLines c none 1 ((lines data).1 ++ next.map c.line) = ((parseChain c data).entries ++ next, none) := by
    have continued : Continues c ((parseLines c none 1 (lines data).1).1.getLast?.or none) next := (continues_append.mp continues).2
    rw [parseLines_append _ ok]
    simp only [parseLines_map_line continued]
    rfl
  refine ⟨?_, ?_, ?_⟩
  · change (parseLines c none 1 (lines _).1).1 = _
    rw [read, parsed]
  · change (parseLines c none 1 (lines _).1).2 = _
    rw [read, parsed]
  · change ((parseLines c none 1 (lines _).1).2.isNone && !(lines _).2.isEmpty) = false
    rw [read, parsed]
    rfl

lemma parseChain_take :
    (parseChain c (data.take (parseChain c data).validBytes)).entries = (parseChain c data).entries ∧
    (parseChain c (data.take (parseChain c data).validBytes)).err = none ∧
    (parseChain c (data.take (parseChain c data).validBytes)).torn = false := by
  simpa [encode] using @parseChain_append c data ok [] (by simpa using (parseChain c data).chain)

end

lemma parseChain_encode {es} (chain : Chain c es) :
    (parseChain c (encode c es)).entries = es ∧ (parseChain c (encode c es)).err = none ∧ (parseChain c (encode c es)).torn = false := by
  simpa [parseChain, lines, parseLines] using @parseChain_append c [] rfl es chain

end StayConnect.Erasure
