import Mathlib.Tactic.Common

/-!
# Text files

A text file is a list of bytes: its text in UTF-8, read back with universal newlines.  `splitlines`
cuts a text at each of the line boundaries that Unicode and Python know, and `records` are the lines
that are not blank.  A newline byte always separates records, whatever stands on either side of it
(`records_newline`), and where the bytes are UTF-8 at all they are so on both sides (`exists_split`).
-/

namespace TextFile

/-! ## UTF-8 -/

/-- `text.encode("utf-8")`. -/
def encode (text : List Char) : List UInt8 := text.flatMap String.utf8EncodeChar

/-- `bytes.decode("utf-8")`, or nothing where that raises. -/
def decode (bytes : List UInt8) : Option (List Char) :=
  bytes.toByteArray.utf8Decode?.map Array.toList

@[simp] theorem encode_nil : encode [] = [] := rfl

theorem encode_cons (c : Char) (text : List Char) :
    encode (c :: text) = String.utf8EncodeChar c ++ encode text := rfl

@[simp] theorem decode_encode (text : List Char) : decode (encode text) = some text := by
  have h : (encode text).toByteArray = text.utf8Encode := rfl
  unfold decode
  rw [h, List.utf8Decode?_utf8Encode]
  rfl

theorem encode_of_decode {bytes : List UInt8} {text : List Char} (h : decode bytes = some text) :
    encode text = bytes := by
  unfold decode at h
  obtain ⟨chars, hchars, rfl⟩ := Option.map_eq_some_iff.1 h
  have hsome : bytes.toByteArray.utf8Decode?.isSome = true := by
    rw [hchars]
    rfl
  have hencode := ByteArray.utf8Encode_get_utf8Decode? (b := bytes.toByteArray) (h := hsome)
  have hget : bytes.toByteArray.utf8Decode?.get hsome = chars := by
    simp only [hchars, Option.get_some]
  rw [hget] at hencode
  exact List.toByteArray_inj.1 hencode

theorem newline_ne_ofNat {n : ℕ} (hle : 128 ≤ n) (hlt : n < 256) : (10 : UInt8) ≠ UInt8.ofNat n := by
  intro h
  have htoNat := congrArg UInt8.toNat h
  rw [UInt8.toNat_ofNat', Nat.mod_eq_of_lt hlt] at htoNat
  have hten : (10 : UInt8).toNat = 10 := rfl
  omega

/-- The newline byte is part of no other character: the bytes of longer ones are 128 and more. -/
theorem eq_newline_of_mem {c : Char} (h : (10 : UInt8) ∈ String.utf8EncodeChar c) : c = '\n' := by
  unfold String.utf8EncodeChar at h
  dsimp only at h
  split_ifs at h with hone htwo hthree
  · have htoNat := congrArg UInt8.toNat (List.mem_singleton.1 h)
    rw [UInt8.toNat_ofNat', Nat.mod_eq_of_lt (by omega)] at htoNat
    exact Char.toNat_inj.1 htoNat.symm
  · simp only [List.mem_cons, List.not_mem_nil, or_false] at h
    obtain h | h := h
    · exact absurd h (newline_ne_ofNat (by omega) (by omega))
    · exact absurd h (newline_ne_ofNat (by omega) (by omega))
  · simp only [List.mem_cons, List.not_mem_nil, or_false] at h
    obtain h | h | h := h
    · exact absurd h (newline_ne_ofNat (by omega) (by omega))
    · exact absurd h (newline_ne_ofNat (by omega) (by omega))
    · exact absurd h (newline_ne_ofNat (by omega) (by omega))
  · simp only [List.mem_cons, List.not_mem_nil, or_false] at h
    obtain h | h | h | h := h
    · exact absurd h (newline_ne_ofNat (by omega) (by omega))
    · exact absurd h (newline_ne_ofNat (by omega) (by omega))
    · exact absurd h (newline_ne_ofNat (by omega) (by omega))
    · exact absurd h (newline_ne_ofNat (by omega) (by omega))

/-- Text in UTF-8 is so on both sides of a newline byte. -/
theorem exists_split {text : List Char} {before behind : List UInt8}
    (h : encode text = before ++ 10 :: behind) :
    ∃ text₁ text₂, text = text₁ ++ '\n' :: text₂ ∧ encode text₁ = before ∧
      encode text₂ = behind := by
  induction text generalizing before with
  | nil => simp at h
  | cons c text ih =>
    rw [encode_cons, List.append_eq_append_iff] at h
    obtain ⟨before', rfl, h⟩ | ⟨rest, hc, h⟩ := h
    · obtain ⟨text₁, text₂, rfl, rfl, rfl⟩ := ih h
      exact ⟨c :: text₁, text₂, rfl, rfl, rfl⟩
    · cases rest with
      | nil =>
        have htext : encode text = [] ++ 10 :: behind := h.symm
        obtain ⟨text₁, text₂, rfl, hnil, rfl⟩ := ih htext
        refine ⟨c :: text₁, text₂, rfl, ?_, rfl⟩
        rw [encode_cons, hnil, hc]
        simp
      | cons b rest =>
        obtain ⟨rfl, rfl⟩ := List.cons.inj h
        obtain rfl := eq_newline_of_mem (c := c) (by rw [hc]; simp)
        have hnewline : String.utf8EncodeChar '\n' = [10] := rfl
        rw [hnewline] at hc
        cases before with
        | nil =>
          obtain rfl := (List.cons.inj hc).2
          exact ⟨[], text, rfl, rfl, rfl⟩
        | cons b' before => simp at hc

/-! ## Lines -/

/-- Reading in text mode: a carriage return, and one with the newline behind it, is a newline. -/
def universalNewlines : List Char → List Char
  | '\r' :: '\n' :: rest => '\n' :: universalNewlines rest
  | '\r' :: rest => '\n' :: universalNewlines rest
  | c :: rest => c :: universalNewlines rest
  | [] => []

/-- The line boundaries of `str.splitlines`. -/
def isLineBreak (c : Char) : Bool :=
  c == '\n' || c == '\r' || c == '\x0b' || c == '\x0c' || c == '\x1c' || c == '\x1d' ||
    c == '\x1e' || c == '\u0085' || c == '\u2028' || c == '\u2029'

/-- `splitlines`, after the beginning `line` of a line. -/
def splitlinesFrom (line : List Char) : List Char → List (List Char)
  | '\r' :: '\n' :: rest => line :: splitlinesFrom [] rest
  | c :: rest =>
    if isLineBreak c then line :: splitlinesFrom [] rest else splitlinesFrom (line ++ [c]) rest
  | [] => if line = [] then [] else [line]

/-- `text.splitlines()`. -/
def splitlines (text : List Char) : List (List Char) := splitlinesFrom [] text

/-- `c.isspace()`. -/
def isSpace (c : Char) : Bool :=
  c == '\t' || c == '\n' || c == '\x0b' || c == '\x0c' || c == '\r' || c == '\x1c' || c == '\x1d' ||
    c == '\x1e' || c == '\x1f' || c == ' ' || c == '\u0085' || c == '\u00a0' || c == '\u1680' ||
    ('\u2000' ≤ c && c ≤ '\u200a') || c == '\u2028' || c == '\u2029' || c == '\u202f' ||
    c == '\u205f' || c == '\u3000'

/-- `not line.strip()`. -/
def isBlank (line : List Char) : Bool := line.all isSpace

/-- The lines of a file's text that are not blank. -/
def records (text : List Char) : List (List Char) :=
  (splitlines (universalNewlines text)).filter fun line => !isBlank line

/-! ### A newline between two texts -/

theorem universalNewlines_cons {c : Char} (hc : c ≠ '\r') (rest : List Char) :
    universalNewlines (c :: rest) = c :: universalNewlines rest := by
  rw [universalNewlines]
  · exact fun _ h => absurd h hc
  · exact hc

theorem universalNewlines_ne {text : List Char} : ∀ c ∈ universalNewlines text, c ≠ '\r' := by
  fun_induction universalNewlines text with
  | case1 rest ih =>
    intro c hc
    obtain rfl | hc := List.mem_cons.1 hc
    · decide
    · exact ih c hc
  | case2 rest _ ih =>
    intro c hc
    obtain rfl | hc := List.mem_cons.1 hc
    · decide
    · exact ih c hc
  | case3 c rest _ hne ih =>
    intro c' hc'
    obtain rfl | hc' := List.mem_cons.1 hc'
    · exact hne
    · exact ih c' hc'
  | case4 => exact fun _ h => absurd h List.not_mem_nil

/-- A carriage return in front of the newline is part of it. -/
theorem universalNewlines_append (before behind : List Char) :
    universalNewlines (before ++ '\n' :: behind) =
        universalNewlines before ++ '\n' :: universalNewlines behind ∨
      ∃ text, universalNewlines before = text ++ ['\n'] ∧
        universalNewlines (before ++ '\n' :: behind) = text ++ '\n' :: universalNewlines behind := by
  fun_induction universalNewlines before with
  | case1 rest ih =>
    have hstep : universalNewlines ('\r' :: '\n' :: rest ++ '\n' :: behind) =
        '\n' :: universalNewlines (rest ++ '\n' :: behind) := rfl
    rw [hstep]
    obtain h | ⟨text, htext, h⟩ := ih
    · exact .inl (by rw [h]; rfl)
    · exact .inr ⟨'\n' :: text, by rw [htext]; rfl, by rw [h]; rfl⟩
  | case2 rest hne ih =>
    cases rest with
    | nil => exact .inr ⟨[], rfl, rfl⟩
    | cons c rest =>
      have hstep : universalNewlines ('\r' :: c :: rest ++ '\n' :: behind) =
          '\n' :: universalNewlines (c :: rest ++ '\n' :: behind) := by
        rw [List.cons_append, universalNewlines]
        rintro rest' heq
        exact hne rest (by rw [(List.cons.inj heq).1])
      rw [hstep]
      obtain h | ⟨text, htext, h⟩ := ih
      · exact .inl (by rw [h]; rfl)
      · exact .inr ⟨'\n' :: text, by rw [htext]; rfl, by rw [h]; rfl⟩
  | case3 c rest _ hne ih =>
    rw [List.cons_append, universalNewlines_cons hne]
    obtain h | ⟨text, htext, h⟩ := ih
    · exact .inl (by rw [h]; rfl)
    · exact .inr ⟨c :: text, by rw [htext]; rfl, by rw [h]; rfl⟩
  | case4 => exact .inl (universalNewlines_cons (by decide) behind)

theorem splitlinesFrom_cons {line rest : List Char} {c : Char} (hc : c ≠ '\r') :
    splitlinesFrom line (c :: rest) =
      if isLineBreak c then line :: splitlinesFrom [] rest else splitlinesFrom (line ++ [c]) rest := by
  rw [splitlinesFrom]
  exact fun _ h => absurd h hc

theorem universalNewlines_eq_self {text : List Char} (h : ∀ c ∈ text, c ≠ '\r') :
    universalNewlines text = text := by
  induction text with
  | nil => rfl
  | cons c text ih =>
    rw [universalNewlines_cons (h c List.mem_cons_self),
      ih fun c' hc' => h c' (List.mem_cons_of_mem c hc')]

/-- A text without line boundaries is one line. -/
theorem splitlinesFrom_eq {line text : List Char} (h : text.any isLineBreak = false) :
    splitlinesFrom line text = if line ++ text = [] then [] else [line ++ text] := by
  induction text generalizing line with
  | nil => rw [splitlinesFrom, List.append_nil]
  | cons c text ih =>
    rw [List.any_cons, Bool.or_eq_false_iff] at h
    have hc : c ≠ '\r' := by
      rintro rfl
      cases h.1
    rw [splitlinesFrom_cons hc, if_neg (Bool.eq_false_iff.1 h.1), ih h.2, List.append_assoc]
    rfl

/-- A newline ends a line, which counts unless it is blank. -/
theorem splitlinesFrom_append {line before : List Char} (hbefore : ∀ c ∈ before, c ≠ '\r')
    (behind : List Char) :
    (splitlinesFrom line (before ++ '\n' :: behind)).filter (fun l => !isBlank l) =
      (splitlinesFrom line before).filter (fun l => !isBlank l) ++
        (splitlines behind).filter fun l => !isBlank l := by
  induction before generalizing line with
  | nil =>
    rw [List.nil_append, splitlinesFrom_cons (by decide), if_pos (by decide), splitlinesFrom]
    unfold splitlines
    by_cases hline : line = []
    · subst hline
      rfl
    · rw [if_neg hline, ← List.filter_append]
      rfl
  | cons c before ih =>
    have hc := hbefore c List.mem_cons_self
    have hrest : ∀ c ∈ before, c ≠ '\r' := fun c' hc' => hbefore c' (List.mem_cons_of_mem c hc')
    rw [List.cons_append, splitlinesFrom_cons hc, splitlinesFrom_cons hc]
    split_ifs
    · rw [List.filter_cons, List.filter_cons, ih hrest]
      split_ifs <;> rfl
    · exact ih hrest

/-- A newline separates records. -/
theorem records_newline (before behind : List Char) :
    records (before ++ '\n' :: behind) = records before ++ records behind := by
  unfold records
  obtain h | ⟨text, htext, h⟩ := universalNewlines_append before behind
  · rw [h]
    exact splitlinesFrom_append universalNewlines_ne _
  · -- the newline takes the place of one that the text in front of it ends with
    have hend : ∀ c ∈ text, c ≠ '\r' := by
      intro c hc
      have hmem : c ∈ universalNewlines before := htext ▸ List.mem_append_left _ hc
      exact universalNewlines_ne c hmem
    rw [h, htext]
    unfold splitlines
    rw [splitlinesFrom_append hend, splitlinesFrom_append hend []]
    simp only [splitlines, splitlinesFrom, if_true, List.filter_nil, List.append_nil]

/-- The records of a file are those of its lines, each taken for itself. -/
theorem exists_lines (text : List Char) : ∃ lines : List (List Char),
    lines.map encode = (encode text).splitOn 10 ∧ records text = lines.flatMap records := by
  induction hlength : text.length using Nat.strongRecOn generalizing text with
  | ind n ih =>
    subst hlength
    by_cases hmem : (10 : UInt8) ∈ encode text
    · obtain ⟨before, behind, hsplit, hbefore⟩ := List.eq_append_cons_of_mem hmem
      obtain ⟨text₁, text₂, rfl, rfl, rfl⟩ := exists_split hsplit
      have hlt : text₂.length < (text₁ ++ '\n' :: text₂).length := by
        rw [List.length_append, List.length_cons]
        omega
      obtain ⟨lines, hlines, hrecords⟩ := ih _ hlt text₂ rfl
      refine ⟨text₁ :: lines, ?_, ?_⟩
      · rw [hsplit, List.splitOn_append_cons_self_of_not_mem hbefore, List.map_cons, hlines]
      · rw [records_newline, hrecords, List.flatMap_cons]
    · refine ⟨[text], ?_, ?_⟩
      · rw [List.splitOn_eq_singleton hmem]
        rfl
      · rw [List.flatMap_cons, List.flatMap_nil, List.append_nil]

end TextFile
