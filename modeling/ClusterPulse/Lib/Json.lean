import ClusterPulse.Lib.TextFile

/-!
# JSON text

What a writer of compact JSON and a reader of any JSON make of the quotes in a text.  `Written` is the
automaton of the writer: the text stands in one line, except that a string may carry any character but
the quote, the backslash and the control characters as it is.  `Lexed` is what a reader can tell of a
text without parsing it: whether its quotes pair up, and which strings stand in it.

A written text that is cut inside its strings cannot be read in parts (`not_readable`): the first part
ends in a string; and in every other part the strings are what stood between the strings of the whole.
-/

namespace Json

open TextFile

/-! ## Writing -/

/-- Lower-case hexadecimal. -/
def hexDigit (n : ℕ) : Char := if n < 10 then Char.ofNat (48 + n) else Char.ofNat (87 + n)

/-- A character in a string: the quote, the backslash and the control characters are escaped. -/
def escapeChar (c : Char) : List Char :=
  if c = '"' then ['\\', '"']
  else if c = '\\' then ['\\', '\\']
  else if c = '\x08' then ['\\', 'b']
  else if c = '\t' then ['\\', 't']
  else if c = '\n' then ['\\', 'n']
  else if c = '\x0c' then ['\\', 'f']
  else if c = '\r' then ['\\', 'r']
  else if c.toNat < 0x20 then
    ['\\', 'u', '0', '0', hexDigit (c.toNat / 16), hexDigit (c.toNat % 16)]
  else [c]

/-- A string. -/
def quoted (s : List Char) : List Char := '"' :: s.flatMap escapeChar ++ ['"']

/-- Elements, separated by commas. -/
def commaSeparated : List (List Char) → List Char
  | [] => []
  | [element] => element
  | element :: rest => element ++ ',' :: commaSeparated rest

def array (elements : List (List Char)) : List Char := '[' :: commaSeparated elements ++ [']']

def member (key value : List Char) : List Char := quoted key ++ ':' :: value

def object (members : List (List Char)) : List Char :=
  '\x7b' :: commaSeparated members ++ ['\x7d']

/-- Where a character stands: outside the strings, behind the quote that closes one, in a string, or
in a string behind a backslash. -/
inductive Mode where
  | outside
  | closed
  | inside
  | escaped
  | invalid
deriving DecidableEq, Repr

/-- The punctuation that may follow a string. -/
def isPunctuation (c : Char) : Bool := c == ':' || c == ',' || c == ']' || c == '\x7d'

/-- What the writer may write, one character at a time. -/
def Mode.next : Mode → Char → Mode
  | outside, c =>
    if c = '"' then inside else if c = '\\' || isLineBreak c then invalid else outside
  | closed, c => if isPunctuation c then outside else invalid
  | inside, c =>
    if c = '"' then closed else if c = '\\' then escaped
    else if c.toNat < 0x20 then invalid else inside
  | escaped, c => if isLineBreak c then invalid else inside
  | invalid, _ => invalid

/-- The mode after some text. -/
def Mode.after (m : Mode) (text : List Char) : Mode := text.foldl Mode.next m

/-- The text is one that the writer writes, up to the mode `m`. -/
abbrev Written (text : List Char) (m : Mode) : Prop := Mode.outside.after text = m

/-! ## Reading -/

/-- The strings of a text, as they are spelled, and where the text ends. -/
structure Lexed where
  mode : Mode
  current : List Char
  found : List (List Char)
deriving DecidableEq, Repr

def Lexed.next (s : Lexed) (c : Char) : Lexed :=
  match s.mode with
  | .outside | .closed =>
    if c = '"' then ⟨.inside, [], s.found⟩
    else if c = '\\' then ⟨.invalid, [], s.found⟩
    else ⟨.outside, [], s.found⟩
  | .inside =>
    if c = '"' then ⟨.outside, [], s.found ++ [s.current]⟩
    else if c = '\\' then ⟨.escaped, s.current ++ [c], s.found⟩
    else ⟨.inside, s.current ++ [c], s.found⟩
  | .escaped => ⟨.inside, s.current ++ [c], s.found⟩
  | .invalid => s

/-- A reader's view of a text. -/
def lex (text : List Char) : Lexed := text.foldl Lexed.next ⟨.outside, [], []⟩

/-- The text in quotes may stand for the string, if an escape sequence may stand for any character. -/
inductive Spells : List Char → List Char → Prop
  | nil : Spells [] []
  | char {spelling s : List Char} (c : Char) (hc : c ≠ '\\') (h : Spells spelling s) :
    Spells (c :: spelling) (c :: s)
  | escape {spelling s : List Char} (c : Char) (sequence : List Char) (h : Spells spelling s) :
    Spells ('\\' :: sequence ++ spelling) (c :: s)

/-- The quotes of the text pair up, no backslash stands outside them, and one of its strings is
`name`. -/
def Readable (name text : List Char) : Prop :=
  (lex text).mode = .outside ∧ ∃ spelling ∈ (lex text).found, Spells spelling name

/-- Text without backslashes spells itself. -/
theorem spells_self {s : List Char} (h : '\\' ∉ s) : Spells s s := by
  induction s with
  | nil => exact .nil
  | cons c s ih =>
    rw [List.mem_cons, not_or] at h
    exact .char c (Ne.symm h.1) (ih h.2)

/-! ## What is written -/

section Writing

variable {m : Mode}

@[simp] theorem Mode.after_nil (m : Mode) : m.after [] = m := rfl

@[simp] theorem Mode.after_cons (m : Mode) (c : Char) (text : List Char) :
    m.after (c :: text) = (m.next c).after text := rfl

theorem Mode.after_append (m : Mode) (text text' : List Char) :
    m.after (text ++ text') = (m.after text).after text' := List.foldl_append ..

/-- A line boundary that is written as it is. -/
def isSeparator (c : Char) : Bool := c == '\u0085' || c == '\u2028' || c == '\u2029'

theorem hexDigit_plain {n : ℕ} (hn : n < 16) :
    Mode.next .inside (hexDigit n) = .inside ∧ isLineBreak (hexDigit n) = false := by
  have h : ∀ n : Fin 16, Mode.next .inside (hexDigit n) = .inside ∧
      isLineBreak (hexDigit n) = false := by decide
  exact h ⟨n, hn⟩

/-- An escaped character stays in its string. -/
theorem after_escapeChar (c : Char) : Mode.inside.after (escapeChar c) = .inside := by
  unfold escapeChar
  split_ifs with hquote hslash _ _ _ _ _ hlow
  · rfl
  · rfl
  · rfl
  · rfl
  · rfl
  · rfl
  · rfl
  · have hhigh := (hexDigit_plain (n := c.toNat / 16) (by omega)).1
    have hlow := (hexDigit_plain (n := c.toNat % 16) (by omega)).1
    show ((Mode.inside.next _).next _) = _
    rw [hhigh, hlow]
  · rw [Mode.after_cons, Mode.after_nil, Mode.next, if_neg hquote, if_neg hslash, if_neg hlow]

theorem after_flatMap_escapeChar (s : List Char) :
    Mode.inside.after (s.flatMap escapeChar) = .inside := by
  induction s with
  | nil => rfl
  | cons c s ih => rw [List.flatMap_cons, Mode.after_append, after_escapeChar, ih]

/-- Behind a string. -/
theorem after_quoted (s : List Char) : Mode.outside.after (quoted s) = .closed := by
  have hopen : Mode.next .outside '"' = .inside := rfl
  unfold quoted
  rw [List.cons_append, Mode.after_cons, hopen, Mode.after_append, after_flatMap_escapeChar]
  rfl

theorem any_isLineBreak_escapeChar (c : Char) :
    (escapeChar c).any isLineBreak = isSeparator c := by
  unfold escapeChar
  split_ifs with hquote hslash hb ht hn hf hr hlow
  · subst hquote
    rfl
  · subst hslash
    rfl
  · subst hb
    rfl
  · subst ht
    rfl
  · subst hn
    rfl
  · subst hf
    rfl
  · subst hr
    rfl
  · have hhigh := (hexDigit_plain (n := c.toNat / 16) (by omega)).2
    have hdigit := (hexDigit_plain (n := c.toNat % 16) (by omega)).2
    have hfixed : isLineBreak '\\' = false ∧ isLineBreak 'u' = false ∧ isLineBreak '0' = false := by
      decide
    have hsmall : isSeparator c = false := by
      by_contra hsep
      simp only [isSeparator, Bool.not_eq_false, Bool.or_eq_true, beq_iff_eq] at hsep
      obtain (rfl | rfl) | rfl := hsep <;> exact absurd hlow (by decide)
    simp [hhigh, hdigit, hfixed, hsmall]
  · have hlarge : ∀ c' : Char, c'.toNat < 0x20 → (c == c') = false := by
      intro c' hc'
      rw [beq_eq_false_iff_ne]
      rintro rfl
      exact hlow hc'
    rw [List.any_cons, List.any_nil, Bool.or_false]
    unfold isLineBreak isSeparator
    rw [hlarge '\n' (by decide), hlarge '\r' (by decide), hlarge '\x0b' (by decide),
      hlarge '\x0c' (by decide), hlarge '\x1c' (by decide), hlarge '\x1d' (by decide),
      hlarge '\x1e' (by decide)]
    simp only [Bool.false_or]

/-- Strings carry line boundaries only of the kind that is not escaped. -/
@[simp] theorem any_isLineBreak_quoted (s : List Char) : (quoted s).any isLineBreak = s.any isSeparator := by
  have hbody : (s.flatMap escapeChar).any isLineBreak = s.any isSeparator := by
    rw [List.any_flatMap]
    simp only [any_isLineBreak_escapeChar]
  have hquote : isLineBreak '"' = false := by decide
  unfold quoted
  rw [List.cons_append, List.any_cons, List.any_append, hbody, hquote]
  simp [hquote]

/-- The text may stand where a value or a member may. -/
def IsElement (text : List Char) : Prop :=
  Mode.outside.after text = .outside ∨ Mode.outside.after text = .closed

theorem isElement_quoted (s : List Char) : IsElement (quoted s) := .inr (after_quoted s)

/-- A number, or a literal. -/
theorem isElement_of_plain {text : List Char}
    (h : ∀ c ∈ text, c ≠ '"' ∧ c ≠ '\\' ∧ isLineBreak c = false) : IsElement text := by
  refine .inl ?_
  induction text with
  | nil => rfl
  | cons c text ih =>
    obtain ⟨hquote, hslash, hbreak⟩ := h c List.mem_cons_self
    have hnext : Mode.next .outside c = .outside := by simp [Mode.next, hquote, hslash, hbreak]
    rw [Mode.after_cons, hnext]
    exact ih fun c' hc' => h c' (List.mem_cons_of_mem c hc')

/-- Punctuation behind an element. -/
theorem IsElement.after_cons {text : List Char} (h : IsElement text) {c : Char}
    (hc : isPunctuation c = true) (rest : List Char) :
    Mode.outside.after (text ++ c :: rest) = Mode.outside.after rest := by
  have hnext : Mode.next .outside c = .outside ∧ Mode.next .closed c = .outside := by
    simp only [isPunctuation, Bool.or_eq_true, beq_iff_eq] at hc
    obtain ((rfl | rfl) | rfl) | rfl := hc
    · decide
    · decide
    · decide
    · decide
  rw [Mode.after_append, Mode.after_cons]
  obtain h | h := h
  · rw [h, hnext.1]
  · rw [h, hnext.2]

theorem isElement_member (key : List Char) {value : List Char} (h : IsElement value) :
    IsElement (member key value) := by
  unfold member IsElement
  rw [(isElement_quoted key).after_cons (by decide)]
  exact h

theorem isElement_commaSeparated {elements : List (List Char)} (h : ∀ e ∈ elements, IsElement e) :
    IsElement (commaSeparated elements) := by
  fun_induction commaSeparated elements with
  | case1 => exact .inl rfl
  | case2 element => exact h element List.mem_cons_self
  | case3 element rest _ ih =>
    unfold IsElement
    rw [(h element List.mem_cons_self).after_cons (by decide)]
    exact ih fun e he => h e (List.mem_cons_of_mem element he)

theorem after_array {elements : List (List Char)} (h : ∀ e ∈ elements, IsElement e) :
    Mode.outside.after (array elements) = .outside := by
  have hopen : Mode.next .outside '[' = .outside := by decide
  unfold array
  rw [List.cons_append, Mode.after_cons, hopen,
    (isElement_commaSeparated h).after_cons (by decide), Mode.after_nil]

theorem after_object {members : List (List Char)} (h : ∀ e ∈ members, IsElement e) :
    Mode.outside.after (object members) = .outside := by
  have hopen : Mode.next .outside '\x7b' = .outside := by decide
  unfold object
  rw [List.cons_append, Mode.after_cons, hopen,
    (isElement_commaSeparated h).after_cons (by decide), Mode.after_nil]

theorem any_isLineBreak_commaSeparated (elements : List (List Char)) :
    (commaSeparated elements).any isLineBreak = elements.any fun e => e.any isLineBreak := by
  have hcomma : isLineBreak ',' = false := by decide
  fun_induction commaSeparated elements with
  | case1 => rfl
  | case2 element => simp
  | case3 element rest _ ih => rw [List.any_append, List.any_cons, hcomma, ih, List.any_cons,
      Bool.false_or]

@[simp] theorem any_isLineBreak_array (elements : List (List Char)) :
    (array elements).any isLineBreak = elements.any fun e => e.any isLineBreak := by
  have hbrackets : isLineBreak '[' = false ∧ isLineBreak ']' = false := by decide
  unfold array
  simp [any_isLineBreak_commaSeparated, hbrackets]

@[simp] theorem any_isLineBreak_object (members : List (List Char)) :
    (object members).any isLineBreak = members.any fun e => e.any isLineBreak := by
  have hbraces : isLineBreak '\x7b' = false ∧ isLineBreak '\x7d' = false := by decide
  unfold object
  simp [any_isLineBreak_commaSeparated, hbraces]

@[simp] theorem any_isLineBreak_member (key value : List Char) :
    (member key value).any isLineBreak = (key.any isSeparator || value.any isLineBreak) := by
  have hcolon : isLineBreak ':' = false := by decide
  unfold member
  rw [List.any_append, any_isLineBreak_quoted, List.any_cons, hcolon, Bool.false_or]

end Writing

/-! ## A written text in parts -/

section Parts

variable {m : Mode} {s : Lexed} {name line rest : List Char} {c : Char}

theorem Mode.after_invalid (text : List Char) : Mode.invalid.after text = .invalid := by
  induction text with
  | nil => rfl
  | cons c text ih => exact ih

theorem Mode.next_ne_invalid (h : m.after (c :: rest) ≠ .invalid) : m.next c ≠ .invalid := by
  intro hc
  rw [after_cons, hc, after_invalid] at h
  exact h rfl

/-- The writer writes a line boundary in a string only, and leaves the string open. -/
theorem Mode.of_isLineBreak (hc : isLineBreak c = true) (h : m.next c ≠ .invalid) :
    m = .inside ∧ m.next c = .inside := by
  have hquote : c ≠ '"' := by
    rintro rfl
    cases hc
  have hslash : c ≠ '\\' := by
    rintro rfl
    cases hc
  cases m with
  | outside => simp [next, hquote, hc] at h
  | closed =>
    have hpunctuation : isPunctuation c = false := by
      by_contra hp
      simp only [isPunctuation, Bool.not_eq_false, Bool.or_eq_true, beq_iff_eq] at hp
      obtain ((rfl | rfl) | rfl) | rfl := hp <;> cases hc
    simp [next, hpunctuation] at h
  | inside =>
    refine ⟨rfl, ?_⟩
    simp only [next, if_neg hquote, if_neg hslash] at h ⊢
    split_ifs at h ⊢ with hlow
    · exact absurd rfl h
    · rfl
  | escaped => simp [next, hc] at h
  | invalid => exact absurd rfl h

theorem Mode.ne_return (h : m.next c ≠ .invalid) : c ≠ '\r' := by
  rintro rfl
  obtain ⟨rfl, -⟩ := Mode.of_isLineBreak (by decide) h
  exact h rfl

/-- The writer writes no carriage return. -/
theorem Mode.ne_return_of_mem {text : List Char} (h : m.after text ≠ .invalid) :
    ∀ c ∈ text, c ≠ '\r' := by
  induction text generalizing m with
  | nil => exact fun _ hc => absurd hc List.not_mem_nil
  | cons c text ih =>
    intro c' hc'
    obtain rfl | hc' := List.mem_cons.1 hc'
    · exact Mode.ne_return (Mode.next_ne_invalid h)
    · exact ih h c' hc'

/-- The text in quotes begins with punctuation. -/
def Foreign (spelling : List Char) : Prop := ∃ c rest, spelling = c :: rest ∧ isPunctuation c = true

theorem Foreign.not_spells (hname : ∀ c s, name = c :: s → isPunctuation c = false)
    {spelling : List Char} (h : Foreign spelling) : ¬ Spells spelling name := by
  obtain ⟨c, rest, rfl, hc⟩ := h
  intro hspells
  cases hspells with
  | char _ hslash h => cases hc.symm.trans (hname c _ rfl)
  | escape => cases hc

/-- The view of a part that began in a string of the whole, which is now in mode `m`: quotes open
what they close in the whole. -/
def Seen (m : Mode) (s : Lexed) : Prop :=
  s.mode = .invalid ∨ (∀ spelling ∈ s.found, Foreign spelling) ∧
    (m = .inside ∧ s.mode = .outside ∨ m = .outside ∧ s.mode = .inside ∧ Foreign s.current ∨
      m = .closed ∧ s.mode = .inside ∧ s.current = [])

theorem Seen.next (h : Seen m s) (hc : m.next c ≠ .invalid) : Seen (m.next c) (s.next c) := by
  obtain ⟨mode, current, found⟩ := s
  obtain rfl | ⟨hfound, ⟨rfl, rfl⟩ | ⟨rfl, rfl, hcurrent⟩ | ⟨rfl, rfl, rfl⟩⟩ := h
  · exact .inl rfl
  · by_cases hquote : c = '"'
    · subst hquote
      exact .inr ⟨hfound, .inr (.inr ⟨rfl, rfl, rfl⟩)⟩
    · by_cases hslash : c = '\\'
      · subst hslash
        exact .inl rfl
      · simp only [Mode.next, Lexed.next, if_neg hquote, if_neg hslash] at hc ⊢
        split_ifs at hc ⊢
        · exact absurd rfl hc
        · exact .inr ⟨hfound, .inl ⟨rfl, rfl⟩⟩
  · by_cases hquote : c = '"'
    · subst hquote
      refine .inr ⟨fun spelling hspelling => ?_, .inl ⟨rfl, rfl⟩⟩
      obtain hspelling | hspelling := List.mem_append.1 hspelling
      · exact hfound spelling hspelling
      · exact List.mem_singleton.1 hspelling ▸ hcurrent
    · have hslash : c ≠ '\\' := by
        rintro rfl
        exact hc rfl
      obtain ⟨c', rest, rfl, hpunctuation⟩ := hcurrent
      simp only [Mode.next, Lexed.next, if_neg hquote, if_neg hslash] at hc ⊢
      split_ifs at hc ⊢
      · exact absurd rfl hc
      · exact .inr ⟨hfound, .inr (.inl ⟨rfl, rfl, c', rest ++ [c], rfl, hpunctuation⟩)⟩
  · have hpunctuation : isPunctuation c = true := by
      by_contra hnot
      simp only [Mode.next, if_neg hnot] at hc
      exact hc rfl
    have hquote : c ≠ '"' := by
      rintro rfl
      cases hpunctuation
    have hslash : c ≠ '\\' := by
      rintro rfl
      cases hpunctuation
    simp only [Mode.next, Lexed.next, if_pos hpunctuation, if_neg hquote, if_neg hslash]
    exact .inr ⟨hfound, .inr (.inl ⟨rfl, rfl, c, [], rfl, hpunctuation⟩)⟩

theorem lex_append_singleton (line : List Char) (c : Char) :
    lex (line ++ [c]) = (lex line).next c := by
  unfold lex
  rw [List.foldl_append]
  rfl

/-- The parts that begin in a string of the whole. -/
theorem Seen.not_readable (hname : ∀ c s, name = c :: s → isPunctuation c = false)
    (h : Seen m (lex line)) (hrest : m.after rest = .outside) :
    ∀ l ∈ splitlinesFrom line rest, ¬ Readable name l := by
  induction rest generalizing m line with
  | nil =>
    obtain rfl : m = .outside := hrest
    intro l hl hreadable
    rw [splitlinesFrom] at hl
    split_ifs at hl
    · cases hl
    · obtain rfl := List.mem_singleton.1 hl
      obtain hinvalid | ⟨-, ⟨hm, -⟩ | ⟨-, hinside, -⟩ | ⟨hm, -⟩⟩ := h
      · cases hinvalid.symm.trans hreadable.1
      · cases hm
      · cases hinside.symm.trans hreadable.1
      · cases hm
  | cons c rest ih =>
    have hafter : m.after (c :: rest) ≠ .invalid := by
      rw [hrest]
      decide
    have hc : m.next c ≠ .invalid := Mode.next_ne_invalid hafter
    rw [Mode.after_cons] at hrest
    rw [splitlinesFrom_cons (Mode.ne_return hc)]
    split_ifs with hbreak
    · obtain ⟨rfl, hinside⟩ := Mode.of_isLineBreak hbreak hc
      rw [hinside] at hrest
      intro l hl
      obtain rfl | hl := List.mem_cons.1 hl
      · rintro ⟨hmode, spelling, hspelling, hspells⟩
        obtain hinvalid | ⟨hfound, -⟩ := h
        · cases hinvalid.symm.trans hmode
        · exact (hfound spelling hspelling).not_spells hname hspells
      · exact ih (.inr ⟨fun _ h => absurd h List.not_mem_nil, .inl ⟨rfl, rfl⟩⟩) hrest l hl
    · exact ih (by rw [lex_append_singleton]; exact h.next hc) hrest

/-- The view of the first part, which is that of the whole. -/
def Begun (m : Mode) (s : Lexed) : Prop := s.mode = if m = .closed then .outside else m

theorem Begun.next (h : Begun m s) (hc : m.next c ≠ .invalid) : Begun (m.next c) (s.next c) := by
  obtain ⟨mode, current, found⟩ := s
  obtain rfl : mode = _ := h
  by_cases hquote : c = '"'
  · subst hquote
    cases m with
    | outside | inside | escaped => rfl
    | closed | invalid => exact absurd rfl hc
  · by_cases hslash : c = '\\'
    · subst hslash
      cases m with
      | inside | escaped => rfl
      | outside | closed | invalid => exact absurd rfl hc
    · cases m with
      | outside | inside | escaped | closed =>
        simp only [Begun, Mode.next, Lexed.next, if_neg hquote, if_neg hslash] at hc ⊢
        split_ifs at hc ⊢ <;> first | rfl | exact absurd rfl hc
      | invalid => exact absurd rfl hc

theorem Begun.not_readable (hname : ∀ c s, name = c :: s → isPunctuation c = false)
    (h : Begun m (lex line)) (hrest : m.after rest = .outside) (hbreak : rest.any isLineBreak = true) :
    ∀ l ∈ splitlinesFrom line rest, ¬ Readable name l := by
  induction rest generalizing m line with
  | nil => cases hbreak
  | cons c rest ih =>
    have hafter : m.after (c :: rest) ≠ .invalid := by
      rw [hrest]
      decide
    have hc : m.next c ≠ .invalid := Mode.next_ne_invalid hafter
    rw [Mode.after_cons] at hrest
    rw [splitlinesFrom_cons (Mode.ne_return hc)]
    rw [List.any_cons, Bool.or_eq_true] at hbreak
    split_ifs with hfirst
    · obtain ⟨rfl, hinside⟩ := Mode.of_isLineBreak hfirst hc
      rw [hinside] at hrest
      intro l hl
      obtain rfl | hl := List.mem_cons.1 hl
      · rintro ⟨hmode, -⟩
        exact Mode.noConfusion (h.symm.trans hmode)
      · exact Seen.not_readable hname
          (.inr ⟨fun _ h => absurd h List.not_mem_nil, .inl ⟨rfl, rfl⟩⟩) hrest l hl
    · exact ih (by rw [lex_append_singleton]; exact h.next hc) hrest (hbreak.resolve_left hfirst)

/-- No line of a written text that is more than one line is readable. -/
theorem not_readable (hname : ∀ c s, name = c :: s → isPunctuation c = false) {text : List Char}
    (h : Written text .outside) (hbreak : text.any isLineBreak = true) :
    ∀ l ∈ splitlines text, ¬ Readable name l :=
  have hbegun : Begun .outside (lex []) := rfl
  hbegun.not_readable hname h hbreak

end Parts

end Json
