import Unveil.Proofs.Markup.Escape
import Unveil.Proofs.Text

namespace Unveil.Markup

/-- What stands between two angles. The values are as they stand in the text, with their escapes. -/
inductive Tag where
  | opening (name : String) (attributes : List (String × List Char))
  | alone (name : String) (attributes : List (String × List Char))
  | closing (name : String)

namespace Tag

/-- The key of an attribute, which stands between a blank and a sign of equality. -/
def readKey : List Char → Option String
  | ' ' :: rest => if rest.getLast? = some '=' then some (String.ofList rest.dropLast) else none
  | _ => none

/-- Attributes, of a text that is cut at its quotes, and what follows them. -/
def readAttributes : List (List Char) → Option (List (String × List Char) × List Char)
  | [] => none
  | [rest] => some ([], rest)
  | lead :: value :: more =>
    (readKey lead).bind fun key =>
      (readAttributes more).map fun (attributes, rest) => ((key, value) :: attributes, rest)

def read : List Char → Option Tag
  | '/' :: name => some (.closing (String.ofList name))
  | body =>
    (readAttributes (Text.pieces '"' (body.dropWhile (· ≠ ' ')))).bind fun (attributes, rest) =>
      let name := String.ofList (body.takeWhile (· ≠ ' '))
      if rest = [] then some (.opening name attributes)
      else if rest = [' ', '/'] then some (.alone name attributes)
      else none

end Tag

/-- A tag with the text before it. -/
structure Token where
  before : List Char
  tag : Tag

/-- The tags of a text that is cut where they begin. No text stands after the last one. -/
def scanFrom (before : List Char) : List (List Char) → Option (List Token)
  | [] => if before = [] then some [] else none
  | piece :: more =>
    match Text.pieces '>' piece with
    | [body, after] =>
      (Tag.read body).bind fun tag => (scanFrom after more).map fun tokens => ⟨before, tag⟩ :: tokens
    | _ => none

/-- The tags of a text and the texts between them. The elements are put together from these. -/
def scan (cs : List Char) : Option (List Token) :=
  match Text.pieces '<' cs with
  | [] => none
  | before :: more => scanFrom before more

/-- An element that is open, with the elements before it. -/
structure Open where
  name : String
  attributes : List Attribute
  before : List Element

/-- `true` for the one element whose content is a text. -/
def holdsText (name : String) : Bool := name == "run"

def readValues (attributes : List (String × List Char)) : List Attribute :=
  attributes.map fun (key, value) => (key, String.ofList (unescape value))

/-- The element that is closed after some elements inside of it and a text. -/
def Open.close? (o : Open) (inside : List Element) (text : List Char) : Option Element :=
  if holdsText o.name then
    if inside.isEmpty then some (.leaf o.name o.attributes (String.ofList (unescape text))) else none
  else if Text.allBlank text then some (.node o.name o.attributes inside) else none

/-- Puts elements together. The stack holds the open elements, innermost first; a closing tag has to
name the innermost one, and there is none to be closed when the stack is empty. -/
def build (stack : List Open) (inside : List Element) : List Token → Option (List Element)
  | [] => if stack.isEmpty then some inside else none
  | ⟨before, .opening name attributes⟩ :: rest =>
    if Text.allBlank before then build (⟨name, readValues attributes, inside⟩ :: stack) [] rest else none
  | ⟨before, .alone name attributes⟩ :: rest =>
    if Text.allBlank before then build stack (inside ++ [.empty name (readValues attributes)]) rest
    else none
  | ⟨before, .closing name⟩ :: rest =>
    match stack with
    | [] => none
    | o :: outer =>
      if o.name = name then
        (o.close? inside before).bind fun e => build outer (o.before ++ [e]) rest
      else none

/-- The one element that tags make up. -/
def Element.ofTokens? (tokens : List Token) : Option Element :=
  match build [] [] tokens with
  | some [e] => some e
  | _ => none

/-- A name that can be told from what stands around it. -/
def isName (name : String) : Bool := name.toList.all fun c => c.isAlphanum || c == '-'

theorem isName.notMem {name : String} (plain : isName name = true) {c : Char}
    (other : (c.isAlphanum || c == '-') = false) : c ∉ name.toList := by
  intro inside
  have fits := List.all_eq_true.mp plain c inside
  rw [other] at fits
  cases fits

namespace Tag

def attributeText (a : String × List Char) : List Char :=
  ' ' :: (a.1.toList ++ ['=']) ++ '"' :: (a.2 ++ ['"'])

/-- How a tag stands between its angles. -/
def body : Tag → List Char
  | opening name attributes => name.toList ++ attributes.flatMap attributeText
  | alone name attributes => name.toList ++ (attributes.flatMap attributeText ++ [' ', '/'])
  | closing name => '/' :: name.toList

/-- A key that is a name, and a value without quotes and angles. -/
structure IsClean (a : String × List Char) : Prop where
  key : isName a.1 = true
  value : '<' ∉ a.2 ∧ '>' ∉ a.2 ∧ '"' ∉ a.2

/-- A tag whose names are names and whose values hold neither quotes nor angles. -/
def Clean : Tag → Prop
  | opening name attributes | alone name attributes => isName name = true ∧ ∀ a ∈ attributes, IsClean a
  | closing name => isName name = true

theorem readKey_key {key : List Char} : readKey (' ' :: (key ++ ['='])) = some (String.ofList key) := by
  simp [readKey]

/-- Attributes are read as they are written. -/
theorem readAttributes_text {attributes : List (String × List Char)}
    (clean : ∀ a ∈ attributes, IsClean a) {rest : List Char} (noQuote : '"' ∉ rest) :
    readAttributes (Text.pieces '"' (attributes.flatMap attributeText ++ rest)) = some (attributes, rest) := by
  induction attributes with
  | nil => rw [List.flatMap_nil, List.nil_append, Text.pieces_of_notMem noQuote, readAttributes]
  | cons a more ih =>
    obtain ⟨⟨name, _, _, value⟩, later⟩ := List.forall_mem_cons.mp clean
    have key : '"' ∉ ' ' :: (a.1.toList ++ ['=']) := by
      simpa using isName.notMem name (by decide : ('"'.isAlphanum || '"' == '-') = false)
    have cut : (a :: more).flatMap attributeText ++ rest =
        (' ' :: (a.1.toList ++ ['='])) ++ '"' :: (a.2 ++ '"' :: (more.flatMap attributeText ++ rest)) := by
      simp [attributeText]
    rw [cut, Text.pieces_append key, Text.pieces_append value, readAttributes, readKey_key, ih later,
      String.ofList_toList]
    rfl

/-- A name is followed by a blank or by nothing. -/
theorem takeWhile_name {name : String} (plain : isName name = true) {rest : List Char}
    (next : rest = [] ∨ ∃ more, rest = ' ' :: more) :
    (name.toList ++ rest).takeWhile (· ≠ ' ') = name.toList ∧
      (name.toList ++ rest).dropWhile (· ≠ ' ') = rest := by
  have solid : ∀ c ∈ name.toList, decide (c ≠ ' ') = true := by
    intro c inside
    have other : c ≠ ' ' := fun same =>
      isName.notMem plain (by decide : (' '.isAlphanum || ' ' == '-') = false) (same ▸ inside)
    simpa using other
  rw [List.takeWhile_append_of_pos solid, List.dropWhile_append_of_pos solid]
  rcases next with rfl | ⟨more, rfl⟩ <;> simp

theorem attributes_next (attributes : List (String × List Char)) {rest : List Char}
    (next : rest = [] ∨ ∃ more, rest = ' ' :: more) :
    attributes.flatMap attributeText ++ rest = [] ∨
      ∃ more, attributes.flatMap attributeText ++ rest = ' ' :: more := by
  cases attributes with
  | nil => exact next
  | cons a more => exact .inr ⟨_, rfl⟩

/-- A name does not begin with a slash, so a tag that does is a closing one. -/
theorem read_of_name {name : String} (plain : isName name = true) {rest : List Char}
    (next : rest = [] ∨ ∃ more, rest = ' ' :: more) :
    read (name.toList ++ rest) =
      (readAttributes (Text.pieces '"' rest)).bind fun (attributes, rest) =>
        if rest = [] then some (.opening name attributes)
        else if rest = [' ', '/'] then some (.alone name attributes)
        else none := by
  obtain ⟨front, back⟩ := takeWhile_name plain next
  have noSlash : ∀ more, name.toList ++ rest ≠ '/' :: more := by
    intro more starts
    have slash := isName.notMem plain (by decide : ('/'.isAlphanum || '/' == '-') = false)
    cases list : name.toList with
    | nil =>
      rw [list, List.nil_append] at starts
      rcases next with rfl | ⟨more, rfl⟩ <;> simp at starts
    | cons c others =>
      rw [list] at slash starts
      cases starts
      exact slash (.head _)
  rw [read.eq_2 _ noSlash, front, back, String.ofList_toList]

/-- A tag is read as it is written. -/
theorem read_body {tag : Tag} (clean : tag.Clean) : read tag.body = some tag := by
  cases tag with
  | opening name attributes =>
    have read := read_of_name clean.1 (attributes_next attributes (.inl rfl : ([] : List Char) = [] ∨ _))
    rw [readAttributes_text clean.2 (by simp), List.append_nil] at read
    exact read
  | alone name attributes =>
    have read := read_of_name clean.1 (attributes_next attributes (.inr ⟨['/'], rfl⟩))
    rw [readAttributes_text clean.2 (by decide)] at read
    exact read
  | closing name =>
    rw [body, read, String.ofList_toList]

/-- No angle stands inside of a tag. -/
theorem body_clean {tag : Tag} (clean : tag.Clean) : '<' ∉ tag.body ∧ '>' ∉ tag.body := by
  have less {name : String} (plain : isName name = true) : '<' ∉ name.toList :=
    isName.notMem plain (by decide)
  have greater {name : String} (plain : isName name = true) : '>' ∉ name.toList :=
    isName.notMem plain (by decide)
  have values {attributes : List (String × List Char)} (all : ∀ a ∈ attributes, IsClean a) :
      '<' ∉ attributes.flatMap attributeText ∧ '>' ∉ attributes.flatMap attributeText := by
    simp only [List.mem_flatMap, not_exists, not_and]
    refine ⟨fun a atA => ?_, fun a atA => ?_⟩
    · simpa [attributeText] using ⟨less (all a atA).key, (all a atA).value.1⟩
    · simpa [attributeText] using ⟨greater (all a atA).key, (all a atA).value.2.1⟩
  cases tag with
  | opening name attributes =>
    simpa [body] using ⟨⟨less clean.1, by simpa using (values clean.2).1⟩, greater clean.1,
      by simpa using (values clean.2).2⟩
  | alone name attributes =>
    simpa [body] using ⟨⟨less clean.1, by simpa using (values clean.2).1⟩, greater clean.1,
      by simpa using (values clean.2).2⟩
  | closing name => simpa [body] using ⟨less clean, greater clean⟩

end Tag

namespace Token

def text (t : Token) : List Char := t.before ++ '<' :: (t.tag.body ++ ['>'])

/-- Neither the text nor the values hold angles, and the values hold no quotes. -/
structure Clean (t : Token) : Prop where
  before : '<' ∉ t.before ∧ '>' ∉ t.before
  tag : t.tag.Clean

end Token

/-- A text is cut where its tags begin, the first piece being what stands before them. -/
theorem scanFrom_text {tokens : List Token} (clean : ∀ t ∈ tokens, t.Clean) {front : List Char}
    (noTag : '<' ∉ front) :
    ∃ last more, Text.pieces '<' (front ++ tokens.flatMap Token.text) = last :: more ∧
      match tokens with
      | [] => last = front ∧ more = []
      | t :: rest => last = front ++ t.before ∧ scanFrom t.before more = some (t :: rest) := by
  induction tokens generalizing front with
  | nil => exact ⟨front, [], by rw [List.flatMap_nil, List.append_nil, Text.pieces_of_notMem noTag], rfl, rfl⟩
  | cons t rest ih =>
    obtain ⟨here, later⟩ := List.forall_mem_cons.mp clean
    obtain ⟨less, greater⟩ := Tag.body_clean here.tag
    have inFront : '<' ∉ front ++ t.before := by simpa using ⟨noTag, here.before.1⟩
    have inPiece : '<' ∉ t.tag.body ++ ['>'] := by simpa using less
    obtain ⟨last, more, cut, found⟩ := ih later inPiece
    refine ⟨front ++ t.before, last :: more, ?_, rfl, ?_⟩
    · have whole : front ++ (t :: rest).flatMap Token.text =
          (front ++ t.before) ++ '<' :: (t.tag.body ++ ['>'] ++ rest.flatMap Token.text) := by
        simp [Token.text]
      rw [whole, Text.pieces_append inFront, cut]
    · cases rest with
      | nil =>
        obtain ⟨rfl, rfl⟩ := found
        have piece : Text.pieces '>' (t.tag.body ++ ['>']) = [t.tag.body, []] := by
          rw [Text.pieces_append greater []]
          rfl
        simp only [scanFrom, piece, Tag.read_body here.tag]
        rfl
      | cons u others =>
        obtain ⟨rfl, scanned⟩ := found
        have after : '>' ∉ u.before := (later u (.head _)).before.2
        have piece : Text.pieces '>' (t.tag.body ++ ['>'] ++ u.before) = [t.tag.body, u.before] := by
          rw [List.append_assoc, List.singleton_append, Text.pieces_append greater,
            Text.pieces_of_notMem after]
        simp only [scanFrom, piece, Tag.read_body here.tag, scanned]
        rfl

/-- Tags that are written one after the other are found again. -/
theorem scan_text {tokens : List Token} (clean : ∀ t ∈ tokens, t.Clean) :
    scan (tokens.flatMap Token.text) = some tokens := by
  obtain ⟨last, more, cut, found⟩ := scanFrom_text clean (nofun : '<' ∉ [])
  rw [List.nil_append] at cut
  rw [scan, cut]
  cases tokens with
  | nil =>
    obtain ⟨rfl, rfl⟩ := found
    rfl
  | cons t rest =>
    obtain ⟨rfl, scanned⟩ := found
    exact scanned

namespace Element

def writtenValues (attributes : List Attribute) : List (String × List Char) :=
  attributes.map fun (key, value) => (key, (escapeValue value).toList)

mutual

/-- The tags of an element of which `depth` are open around it, with `before` in front of the first and
`gap` in front of those that stand on lines of their own. -/
def tokens (gap : Nat → List Char) (depth : Nat) (before : List Char) : Element → List Token
  | node name attributes children =>
    ⟨before, .opening name (writtenValues attributes)⟩ ::
      (tokensAll gap (depth + 1) children ++ [⟨gap depth, .closing name⟩])
  | leaf name attributes text =>
    [⟨before, .opening name (writtenValues attributes)⟩, ⟨(escapeText text).toList, .closing name⟩]
  | empty name attributes => [⟨before, .alone name (writtenValues attributes)⟩]

def tokensAll (gap : Nat → List Char) (depth : Nat) : List Element → List Token
  | [] => []
  | e :: rest => tokens gap depth (gap depth) e ++ tokensAll gap depth rest

end

/-- The names are names, and texts stand in the elements that hold texts. -/
def NamesPlain (name : String) (attributes : List Attribute) : Prop :=
  isName name = true ∧ ∀ a ∈ attributes, isName a.1 = true

mutual

def Plain : Element → Prop
  | node name attributes children => NamesPlain name attributes ∧ holdsText name = false ∧ PlainAll children
  | leaf name attributes _ => NamesPlain name attributes ∧ holdsText name = true
  | empty name attributes => NamesPlain name attributes

def PlainAll : List Element → Prop
  | [] => True
  | e :: rest => Plain e ∧ PlainAll rest

end

theorem plainAll_iff {elements : List Element} : PlainAll elements ↔ ∀ e ∈ elements, e.Plain := by
  induction elements with
  | nil => simp [PlainAll]
  | cons e rest ih => simp [PlainAll, ih]

theorem tagText_opening (name : String) (attributes : List Attribute) :
    (tagText name attributes ++ ">").toList =
      '<' :: ((Tag.opening name (writtenValues attributes)).body ++ ['>']) := by
  simp [tagText, Tag.body, writtenValues, List.flatMap_map, Tag.attributeText]

theorem tagText_alone (name : String) (attributes : List Attribute) :
    (tagText name attributes ++ " />").toList =
      '<' :: ((Tag.alone name (writtenValues attributes)).body ++ ['>']) := by
  simp [tagText, Tag.body, writtenValues, List.flatMap_map, Tag.attributeText]

theorem closeText_closing (name : String) :
    (closeText name).toList = '<' :: ((Tag.closing name).body ++ ['>']) := by
  simp [closeText, Tag.body]

mutual

/-- The lines of an element are its tags, each line with its gap in front. -/
theorem tokens_text (gap : Nat → List Char) (depth : Nat) :
    ∀ e : Element, (e.tokens gap depth (gap depth)).flatMap Token.text =
      (e.lines depth).flatMap fun l => gap l.depth ++ l.text.toList
  | node name attributes children => by
    have inside := tokensAll_text gap (depth + 1) children
    simp only [tokens, lines, List.flatMap_cons, List.flatMap_append, List.flatMap_nil, List.append_nil,
      List.cons_append, inside, tagText_opening, closeText_closing, Token.text]
  | leaf name attributes text => by
    have line : (tagText name attributes ++ ">" ++ escapeText text ++ closeText name).toList =
        '<' :: ((Tag.opening name (writtenValues attributes)).body ++ ['>']) ++ (escapeText text).toList ++
          '<' :: ((Tag.closing name).body ++ ['>']) := by
      rw [String.toList_append, String.toList_append, tagText_opening, closeText_closing]
    simp only [tokens, lines, List.flatMap_cons, List.flatMap_nil, List.append_nil, line, Token.text,
      List.append_assoc]
  | empty name attributes => by
    simp only [tokens, lines, List.flatMap_cons, List.flatMap_nil, List.append_nil, tagText_alone, Token.text]

theorem tokensAll_text (gap : Nat → List Char) (depth : Nat) :
    ∀ elements : List Element, (tokensAll gap depth elements).flatMap Token.text =
      (linesAll depth elements).flatMap fun l => gap l.depth ++ l.text.toList
  | [] => rfl
  | e :: rest => by
    simp only [tokensAll, linesAll, List.flatMap_append, tokens_text gap depth e,
      tokensAll_text gap depth rest]

end

theorem writtenValues_clean {name : String} {attributes : List Attribute}
    (plain : NamesPlain name attributes) : ∀ a ∈ writtenValues attributes, Tag.IsClean a := by
  have written (a : Attribute) (named : isName a.1 = true) :
      Tag.IsClean (a.1, (escapeValue a.2).toList) := ⟨named, by simpa using escapeValue_clean a.2⟩
  intro a atA
  obtain ⟨b, inside, rfl⟩ := List.mem_map.mp atA
  exact written b (plain.2 b inside)

mutual

/-- The tags of an element have no angles and quotes but their own. -/
theorem tokens_clean {gap : Nat → List Char} (gaps : ∀ d, '<' ∉ gap d ∧ '>' ∉ gap d) (depth : Nat)
    {before : List Char} (front : '<' ∉ before ∧ '>' ∉ before) :
    ∀ e : Element, e.Plain → ∀ t ∈ e.tokens gap depth before, t.Clean
  | node name attributes children => fun ⟨names, _, below⟩ t atT => by
    simp only [tokens, List.mem_cons, List.mem_append, List.not_mem_nil, or_false] at atT
    rcases atT with rfl | inside | rfl
    · exact ⟨front, names.1, writtenValues_clean names⟩
    · exact tokensAll_clean gaps (depth + 1) children below t inside
    · exact ⟨gaps depth, names.1⟩
  | leaf name attributes text => fun ⟨names, _⟩ t atT => by
    simp only [tokens, List.mem_cons, List.not_mem_nil, or_false] at atT
    rcases atT with rfl | rfl
    · exact ⟨front, names.1, writtenValues_clean names⟩
    · exact ⟨escapeText_clean text, names.1⟩
  | empty name attributes => fun names t atT => by
    simp only [tokens, List.mem_cons, List.not_mem_nil, or_false] at atT
    subst t
    exact ⟨front, names.1, writtenValues_clean names⟩

theorem tokensAll_clean {gap : Nat → List Char} (gaps : ∀ d, '<' ∉ gap d ∧ '>' ∉ gap d) (depth : Nat) :
    ∀ elements : List Element, PlainAll elements → ∀ t ∈ tokensAll gap depth elements, t.Clean
  | [] => fun _ _ atT => nomatch atT
  | e :: rest => fun ⟨first, others⟩ t atT => by
    rcases List.mem_append.mp atT with here | later
    · exact tokens_clean gaps depth (gaps depth) e first t here
    · exact tokensAll_clean gaps depth rest others t later

end

theorem readValues_writtenValues (attributes : List Attribute) :
    readValues (writtenValues attributes) = attributes := by
  have undone : (fun a : String × List Char => (a.1, String.ofList (unescape a.2))) ∘
      (fun a : Attribute => (a.1, (escapeValue a.2).toList)) = id := by
    funext a
    simp [unescape_escapeValue]
  exact List.map_map.trans ((congrArg (fun f => attributes.map f) undone).trans (List.map_id _))

mutual

/-- The tags of an element add it to those inside of the innermost open one, whatever is open. -/
theorem build_tokens {gap : Nat → List Char} (gaps : ∀ d, Text.allBlank (gap d) = true) (depth : Nat)
    {before : List Char} (front : Text.allBlank before = true) (stack : List Open) (inside : List Element)
    (more : List Token) :
    ∀ e : Element, e.Plain →
      build stack inside (e.tokens gap depth before ++ more) = build stack (inside ++ [e]) more
  | node name attributes children => fun ⟨_, holdsNone, below⟩ => by
    have built := build_tokensAll gaps (depth + 1) (⟨name, attributes, inside⟩ :: stack) []
      (⟨gap depth, .closing name⟩ :: more) children below
    simp only [tokens, List.cons_append, List.append_assoc, build, front, readValues_writtenValues, if_true]
    rw [List.nil_append] at built
    rw [List.nil_append, built]
    simp [build, Open.close?, holdsNone, gaps depth]
  | leaf name attributes text => fun ⟨_, holds⟩ => by
    simp [tokens, build, front, readValues_writtenValues, Open.close?, holds, unescape_escapeText]
  | empty name attributes => fun _ => by
    simp [tokens, build, front, readValues_writtenValues]

/-- Elements side by side are put together one after the other. -/
theorem build_tokensAll {gap : Nat → List Char} (gaps : ∀ d, Text.allBlank (gap d) = true) (depth : Nat)
    (stack : List Open) (inside : List Element) (more : List Token) :
    ∀ elements : List Element, PlainAll elements →
      build stack inside (tokensAll gap depth elements ++ more) = build stack (inside ++ elements) more
  | [] => fun _ => by rw [tokensAll, List.nil_append, List.append_nil]
  | e :: rest => fun ⟨first, others⟩ => by
    rw [tokensAll, List.append_assoc, build_tokens gaps depth (gaps depth) stack inside _ e first,
      build_tokensAll gaps depth stack _ more rest others, List.append_assoc, List.singleton_append]

end

/-- How the text of an element is laid out: all on one line, or on lines that are indented by depth. -/
def layout (indent : Bool) (depth : Nat) : List Char :=
  if indent then '\n' :: List.replicate (2 * depth) ' ' else []

theorem layout_blank (indent : Bool) (depth : Nat) : Text.allBlank (layout indent depth) = true := by
  have newline : Text.isBlank '\n' = true := by decide
  have space : Text.isBlank ' ' = true := by decide
  unfold layout
  split <;> simp [Text.allBlank, newline, space]

theorem layout_clean (indent : Bool) (depth : Nat) : '<' ∉ layout indent depth ∧ '>' ∉ layout indent depth := by
  unfold layout
  split <;> simp [List.mem_replicate]

/-- The text of an element on one line or on indented lines. -/
def printed (indent : Bool) (e : Element) : String := if indent then e.pretty else e.compact

/-- What stands before the first tag has no part in what follows it. -/
theorem tokens_before (gap : Nat → List Char) (depth : Nat) (e : Element) :
    ∃ rest, ∀ front, (e.tokens gap depth front).flatMap Token.text = front ++ rest := by
  cases e <;> exact ⟨_, fun front => by simp only [tokens, List.flatMap_cons, Token.text, List.append_assoc]; rfl⟩

theorem indented_toList (l : TextLine) :
    (indented l).toList = List.replicate (2 * l.depth) ' ' ++ l.text.toList := by
  have spaces (n : Nat) : (List.replicate n "  ").flatMap String.toList = List.replicate (2 * n) ' ' := by
    induction n with
    | zero => rfl
    | succ n ih => rw [List.replicate_succ, List.flatMap_cons, ih]; rfl
  rw [indented, String.toList_append, String.toList_join, spaces]

/-- A separator in front of the first entry as well. -/
theorem cons_intercalate (sep : Char) {entries : List (List Char)} (nonempty : entries ≠ []) :
    sep :: [sep].intercalate entries = entries.flatMap fun entry => sep :: entry := by
  induction entries with
  | nil => exact absurd rfl nonempty
  | cons entry rest ih =>
    cases rest with
    | nil => simp [List.intercalate]
    | cons next more =>
      have later := ih (by simp)
      rw [List.flatMap_cons, ← later]
      simp [List.intercalate]

theorem lines_ne_nil (depth : Nat) (e : Element) : e.lines depth ≠ [] := by
  cases e <;> simp [lines]

/-- The text of an element is made up of its tags. -/
theorem printed_tokens (indent : Bool) (e : Element) :
    (printed indent e).toList = (e.tokens (layout indent) 0 []).flatMap Token.text := by
  obtain ⟨rest, fronts⟩ := tokens_before (layout indent) 0 e
  have lines := tokens_text (layout indent) 0 e
  rw [fronts] at lines ⊢
  cases indent with
  | false =>
    rw [List.nil_append]
    simp only [printed, Bool.false_eq_true, if_false, compact, String.toList_join, List.flatMap_map]
    exact lines.symm
  | true =>
    have gaps : layout true 0 = ['\n'] := rfl
    have nonempty : ((e.lines 0).map indented).map String.toList ≠ [] := by simpa using e.lines_ne_nil 0
    have separated := cons_intercalate '\n' nonempty
    simp only [List.flatMap_map, indented_toList] at separated
    have newline : "\n".toList = ['\n'] := rfl
    have same : '\n' :: (pretty e).toList = '\n' :: rest := by
      rw [pretty, String.toList_intercalate, newline, separated]
      exact lines.symm
    exact List.tail_eq_of_cons_eq same

/-- Reading gives back an element that was written on one line or on indented lines: its tags are
nested, its texts and values are undone, and they hold none of the characters that end them. -/
theorem scan_printed (indent : Bool) {e : Element} (plain : e.Plain) :
    ∃ tokens, scan (printed indent e).toList = some tokens ∧ (∀ t ∈ tokens, t.Clean) ∧
      ofTokens? tokens = some e := by
  have clean := tokens_clean (layout_clean indent) 0 (by simp : '<' ∉ [] ∧ '>' ∉ []) e plain
  refine ⟨e.tokens (layout indent) 0 [], ?_, clean, ?_⟩
  · rw [printed_tokens, scan_text clean]
  · have built := build_tokens (layout_blank indent) 0 (rfl : Text.allBlank [] = true) [] [] [] e plain
    rw [List.append_nil] at built
    rw [ofTokens?, built]
    rfl

end Element

end Unveil.Markup
