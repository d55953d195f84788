import Mathlib.Data.List.Chain
import Mathlib.Data.List.TakeWhile
import Solarix.Core.Text
import Solarix.Core.Unicode

/-!
# The lexical structure of SQL

A lexer after the rules of PostgreSQL with `standard_conforming_strings` on: quoted
identifiers and literals end at a quote that is not doubled, and a backslash is a character
like any other.  Of a quoted identifier 63 bytes are kept; an empty one is refused.  So is what
a program does not write on purpose, instead of being read: comments, dollar quotes, strings
with a letter before the quote, literals continued on a later line, fractions, operators that
end in a sign.

A statement is built from texts of the program and from names, keys and placeholders put
between them.  If each piece ends where the next one starts, the tokens of the statement are
the tokens of its pieces.
-/

namespace Solarix.Core

inductive SqlToken where
  /-- A double-quoted identifier, by the name that the server keeps. -/
  | ident (name : String)
  /-- A single-quoted literal, by its value. -/
  | literal (value : String)
  /-- A key word or an identifier without quotes, as it is written. -/
  | word (text : String)
  | number (digits : String)
  /-- `$n`. -/
  | param (number : Nat)
  | operator (text : String)
  /-- `::`. -/
  | typecast
  | symbol (c : Char)
  deriving DecidableEq, Repr

def SqlToken.param? : SqlToken → Option Nat
  | .param n => some n
  | _ => none

def params (tokens : List SqlToken) : List Nat := tokens.filterMap SqlToken.param?

/-! ## Identifiers -/

/-- The name under which PostgreSQL keeps a quoted identifier. -/
def pgIdentifier (name : String) : String := truncateToBytes name 63

theorem pgIdentifier_of_le {name : String} (h : name.utf8ByteSize ≤ 63) :
    pgIdentifier name = name :=
  truncateToBytes_of_le h

def identToken (cs : List Char) : Option (List SqlToken) :=
  if cs.isEmpty then none else some [.ident (String.ofList (takeBytes 63 cs))]

theorem identToken_toList (name : String) :
    identToken name.toList = if name = "" then none else some [.ident (pgIdentifier name)] := by
  have hempty : name.toList.isEmpty = true ↔ name = "" := by simp
  unfold identToken
  exact if_congr hempty rfl rfl

/-! ## Characters -/

def isSqlSpace (c : Char) : Bool := [' ', '\n', '\t', '\r', '\x0c'].contains c

def isNewline (c : Char) : Bool := c == '\n' || c == '\r'

def isWordStart (c : Char) : Bool := c.isAlpha || c == '_' || 128 ≤ c.toNat

def isWordChar (c : Char) : Bool := isWordStart c || c.isDigit || c == '$'

def isOperatorChar (c : Char) : Bool :=
  ['<', '>', '=', '-', '+', '*', '/', '@', '!', '~', '#', '%', '^', '&', '|', '\x60',
    '?'].contains c

def isSymbol (c : Char) : Bool := ['(', ')', ',', ';', '[', ']'].contains c

/-! ## The lexer -/

/-- Where the lexer is.  The characters of the token in progress come last first. -/
inductive LexState where
  | start
  | ident (read : List Char)
  /-- After a quote inside an identifier, which ends it unless a second one follows. -/
  | identQuote (read : List Char)
  | literal (read : List Char)
  | literalQuote (read : List Char)
  /-- In the space after a literal. -/
  | literalGap (read : List Char) (newline : Bool)
  | word (read : List Char)
  | number (read : List Char)
  | dollar
  | param (read : List Char)
  | operator (read : List Char)
  | colon
  | dot
  deriving DecidableEq, Repr

namespace LexState

def enter (c : Char) : Option (List SqlToken × LexState) :=
  if isSqlSpace c then some ([], .start)
  else if isWordStart c then some ([], .word [c])
  else if c = '"' then some ([], .ident [])
  else if c = '\'' then some ([], .literal [])
  else if c = '$' then some ([], .dollar)
  else if c = ':' then some ([], .colon)
  else if c = '.' then some ([], .dot)
  else if isSymbol c then some ([.symbol c], .start)
  else if c.isDigit then some ([], .number [c])
  else if isOperatorChar c then some ([], .operator [c])
  else none

def finish : LexState → Option (List SqlToken)
  | .start => some []
  | .ident _ => none
  | .identQuote read => identToken read.reverse
  | .literal _ => none
  | .literalQuote read => some [.literal (String.ofList read.reverse)]
  | .literalGap read _ => some [.literal (String.ofList read.reverse)]
  | .word read => some [.word (String.ofList read.reverse)]
  | .number read => some [.number (String.ofList read.reverse)]
  | .dollar => none
  | .param read => some [.param (Nat.ofDigitChars 10 read.reverse 0)]
  | .operator read =>
      -- a sign at the end of a longer operator may be a token of its own
      if 1 < read.length ∧ (read.head? = some '+' ∨ read.head? = some '-') then none
      else some [.operator (String.ofList read.reverse)]
  | .colon => none
  | .dot => some [.symbol '.']

def close (st : LexState) (c : Char) : Option (List SqlToken × LexState) := do
  let tokens ← finish st
  let next ← enter c
  some (tokens ++ next.1, next.2)

def step : LexState → Char → Option (List SqlToken × LexState)
  | .start, c => enter c
  | .ident read, c =>
      if c = '"' then some ([], .identQuote read)
      else if c = '\x00' then none
      else some ([], .ident (c :: read))
  | .identQuote read, c =>
      if c = '"' then some ([], .ident (c :: read)) else close (.identQuote read) c
  | .literal read, c =>
      if c = '\'' then some ([], .literalQuote read)
      else if c = '\x00' then none
      else some ([], .literal (c :: read))
  | .literalQuote read, c =>
      if c = '\'' then some ([], .literal (c :: read))
      else if isSqlSpace c then some ([], .literalGap read (isNewline c))
      else close (.literalQuote read) c
  | .literalGap read newline, c =>
      if isSqlSpace c then some ([], .literalGap read (newline || isNewline c))
      -- a literal on a later line continues this one
      else if c = '\'' ∧ newline = true then none
      else close (.literalGap read newline) c
  | .word read, c =>
      if isWordChar c then some ([], .word (c :: read))
      -- `E'..'`, `U&".."` and the like
      else if c = '\'' ∨ c = '"' ∨ c = '&' then none
      else close (.word read) c
  | .number read, c =>
      if c.isDigit then some ([], .number (c :: read))
      else if isWordChar c ∨ c = '.' then none
      else close (.number read) c
  | .dollar, c => if c.isDigit then some ([], .param [c]) else none
  | .param read, c =>
      if c.isDigit then some ([], .param (c :: read))
      else if isWordChar c then none
      else close (.param read) c
  | .operator read, c =>
      if isOperatorChar c then
        -- `--` and `/*` start a comment
        if (read.head? = some '-' ∧ c = '-') ∨ (read.head? = some '/' ∧ c = '*') then none
        else some ([], .operator (c :: read))
      else close (.operator read) c
  | .colon, c => if c = ':' then some ([.typecast], .start) else none
  | .dot, c => if c = '.' ∨ c.isDigit then none else close .dot c

def run : LexState → List Char → Option (List SqlToken × LexState)
  | st, [] => some ([], st)
  | st, c :: cs => do
      let now ← step st c
      let later ← run now.2 cs
      some (now.1 ++ later.1, later.2)

def lexFrom (st : LexState) (cs : List Char) : Option (List SqlToken) := do
  let read ← run st cs
  let last ← finish read.2
  some (read.1 ++ last)

end LexState

open LexState

def lex (sql : String) : Option (List SqlToken) := lexFrom .start sql.toList

example : lex (String.ofList ['"', 'a', '"', '"', 'b', '"', '-', '>', '>', '\'', '\\', '\'']) =
    some [.ident "a\"b", .operator "->>", .literal "\\"] := by
  decide +kernel

section Runs

variable {st st' : LexState} {c : Char} {cs xs ys : List Char} {ts us : List SqlToken}

theorem run_append (h : run st xs = some (ts, st')) :
    run st (xs ++ ys) = (run st' ys).map fun later => (ts ++ later.1, later.2) := by
  induction xs generalizing st ts with
  | nil =>
      cases h
      simp
  | cons c xs ih =>
      obtain ⟨now, hnow, h⟩ := Option.bind_eq_some_iff.mp h
      obtain ⟨later, hlater, h⟩ := Option.bind_eq_some_iff.mp h
      cases h
      rw [List.cons_append, run, hnow]
      simp only [Option.bind_eq_bind, Option.bind_some, ih hlater]
      cases run later.2 ys <;> simp

theorem lexFrom_append (h : run st xs = some (ts, st')) :
    lexFrom st (xs ++ ys) = (lexFrom st' ys).map (ts ++ ·) := by
  unfold lexFrom
  rw [run_append h]
  cases run st' ys with
  | none => rfl
  | some later =>
      simp only [Option.map_some, Option.bind_eq_bind, Option.bind_some]
      cases finish later.2 <;> simp

theorem lexFrom_cons (h : step st c = some (ts, st')) :
    lexFrom st (c :: cs) = (lexFrom st' cs).map (ts ++ ·) := by
  have hrun : run st [c] = some (ts, st') := by simp [run, h]
  exact lexFrom_append hrun

end Runs

/-! ## The end of a token -/

def Separates (st : LexState) (cs : List Char) : Prop :=
  lexFrom st cs = do
    let tokens ← finish st
    let later ← lexFrom .start cs
    some (tokens ++ later)

section Ends

variable {st : LexState} {c : Char} {cs : List Char}

theorem separates_nil (st : LexState) : Separates st [] := by
  have hstart : lexFrom .start [] = some [] := rfl
  unfold Separates
  rw [hstart]
  cases hfinish : finish st <;> simp [lexFrom, run, hfinish]

theorem separates_cons (h : step st c = close st c) : Separates st (c :: cs) := by
  unfold Separates
  cases hfinish : finish st with
  | none =>
      have hstep : step st c = none := by simp [h, close, hfinish]
      simp [lexFrom, run, hstep]
  | some tokens =>
      cases henter : enter c with
      | none =>
          have hstep : step st c = none := by simp [h, close, henter]
          have hstart : step .start c = none := henter
          simp [lexFrom, run, hstep, hstart]
      | some next =>
          have hstep : step st c = some (tokens ++ next.1, next.2) := by
            simp [h, close, hfinish, henter]
          have hstart : step .start c = some (next.1, next.2) := henter
          rw [lexFrom_cons hstep, lexFrom_cons hstart]
          cases lexFrom next.2 cs <;> simp

/-- A literal ends, whatever space follows, if the text after the space is no literal. -/
theorem separates_literalGap {read : List Char} {newline : Bool}
    (h : (cs.dropWhile isSqlSpace).head? ≠ some '\'') :
    Separates (.literalGap read newline) cs := by
  induction cs generalizing newline with
  | nil => exact separates_nil _
  | cons c cs ih =>
      by_cases hspace : isSqlSpace c
      · rw [List.dropWhile_cons_of_pos hspace] at h
        have hstep : step (.literalGap read newline) c =
            some ([], .literalGap read (newline || isNewline c)) := by
          simp [step, hspace]
        have hstart : step .start c = some ([], .start) := by simp [step, enter, hspace]
        unfold Separates
        rw [lexFrom_cons hstep, lexFrom_cons hstart, ih h]
        simp [finish]
      · rw [List.dropWhile_cons_of_neg hspace] at h
        have hquote : c ≠ '\'' := by simpa using h
        exact separates_cons (by simp [step, hspace, hquote])

theorem separates_literalQuote {read : List Char}
    (h : (cs.dropWhile isSqlSpace).head? ≠ some '\'') (hquote : cs.head? ≠ some '\'') :
    Separates (.literalQuote read) cs := by
  cases cs with
  | nil => exact separates_nil _
  | cons c cs =>
      have hc : c ≠ '\'' := by simpa using hquote
      by_cases hspace : isSqlSpace c
      · rw [List.dropWhile_cons_of_pos hspace] at h
        have hstep : step (.literalQuote read) c =
            some ([], .literalGap read (isNewline c)) := by
          simp [step, hspace, hc]
        have hstart : step .start c = some ([], .start) := by simp [step, enter, hspace]
        unfold Separates
        rw [lexFrom_cons hstep, lexFrom_cons hstart, separates_literalGap h]
        simp [finish]
      · exact separates_cons (by simp [step, hspace, hc])

end Ends

/-! ## Quotes -/

def doubled (quote : Char) (cs : List Char) : List Char :=
  cs.flatMap fun c => if c = quote then [c, c] else [c]

def quoted (quote : Char) (text : String) : String :=
  String.ofList (quote :: doubled quote text.toList ++ [quote])

section Quoted

variable {quote : Char} {inside after : List Char → LexState}

theorem run_doubled (hquote : ∀ read, run (inside read) [quote, quote] =
      some ([], inside (quote :: read)))
    (hother : ∀ read c, c ≠ quote → c ≠ '\x00' →
      step (inside read) c = some ([], inside (c :: read)))
    {cs read : List Char} (h : '\x00' ∉ cs) :
    run (inside read) (doubled quote cs) = some ([], inside (cs.reverse ++ read)) := by
  induction cs generalizing read with
  | nil => rfl
  | cons c cs ih =>
      obtain ⟨hc, hcs⟩ := not_or.mp (mt List.mem_cons.mpr h)
      have hchar : run (inside read) (if c = quote then [c, c] else [c]) =
          some ([], inside (c :: read)) := by
        by_cases heq : c = quote
        · rw [if_pos heq, heq, hquote]
        · simp [heq, run, hother read c heq (Ne.symm hc)]
      rw [doubled, List.flatMap_cons, run_append hchar, ← doubled, ih hcs]
      simp

theorem run_quoted (hopen : run .start [quote] = some ([], inside []))
    (hclose : ∀ read, run (inside read) [quote] = some ([], after read))
    (hquote : ∀ read, run (inside read) [quote, quote] = some ([], inside (quote :: read)))
    (hother : ∀ read c, c ≠ quote → c ≠ '\x00' →
      step (inside read) c = some ([], inside (c :: read)))
    {text : String} (h : '\x00' ∉ text.toList) :
    run .start (quoted quote text).toList = some ([], after text.toList.reverse) := by
  rw [quoted, String.toList_ofList, List.cons_append, ← List.singleton_append,
    run_append hopen, run_append (run_doubled hquote hother h), hclose]
  simp

end Quoted

theorem run_quoted_ident {name : String} (h : '\x00' ∉ name.toList) :
    run .start (quoted '"' name).toList = some ([], .identQuote name.toList.reverse) := by
  refine @run_quoted '"' .ident .identQuote (by decide) ?_ ?_ ?_ name h
  · intro read
    simp [run, step]
  · intro read
    simp [run, step]
  · intro read c hquote hnul
    simp [step, hquote, hnul]

theorem run_quoted_literal {key : String} (h : '\x00' ∉ key.toList) :
    run .start (quoted '\'' key).toList = some ([], .literalQuote key.toList.reverse) := by
  refine @run_quoted '\'' .literal .literalQuote (by decide) ?_ ?_ ?_ key h
  · intro read
    simp [run, step]
  · intro read
    simp [run, step]
  · intro read c hquote hnul
    simp [step, hquote, hnul]

/-! ## Placeholders -/

theorem run_param_digits {cs read : List Char} (h : ∀ c ∈ cs, c.isDigit = true) :
    run (.param read) cs = some ([], .param (cs.reverse ++ read)) := by
  induction cs generalizing read with
  | nil => rfl
  | cons c cs ih =>
      obtain ⟨hc, hcs⟩ := List.forall_mem_cons.mp h
      have hstep : step (.param read) c = some ([], .param (c :: read)) := by simp [step, hc]
      simp [run, hstep, ih hcs]

theorem run_placeholder (n : Nat) :
    run .start ("$" ++ toString n).toList = some ([], .param (Nat.toDigits 10 n).reverse) := by
  have hdigits : ∀ c ∈ Nat.toDigits 10 n, c.isDigit = true := by
    simpa using all_isDigit_toDigits n
  have hdollar : run .start ['$'] = some ([], .dollar) := by decide
  have htext : ("$" ++ toString n).toList = ['$'] ++ Nat.toDigits 10 n := by
    simp [Nat.toString_eq_repr, Nat.toList_repr]
  rw [htext, run_append hdollar]
  cases hn : Nat.toDigits 10 n with
  | nil => exact absurd hn Nat.toDigits_ne_nil
  | cons c cs =>
      rw [hn] at hdigits
      obtain ⟨hc, hcs⟩ := List.forall_mem_cons.mp hdigits
      have hstep : step .dollar c = some ([], .param [c]) := by simp [step, hc]
      simp [run, hstep, run_param_digits hcs]

/-! ## Statements in pieces -/

inductive Piece where
  /-- A text of the program. -/
  | fixed (text : String)
  /-- A name, written as a quoted identifier. -/
  | name (name : String)
  /-- A key, written as a literal. -/
  | key (key : String)
  /-- The placeholder of a bound value. -/
  | param (number : Nat)

namespace Piece

def text : Piece → String
  | .fixed text => text
  | .name n => quoted '"' n
  | .key k => quoted '\'' k
  | .param n => "$" ++ toString n

/-- A name is one token, and so are a key and a placeholder. -/
def tokens : Piece → Option (List SqlToken)
  | .fixed text => lex text
  | .name n => if n = "" then none else some [.ident (pgIdentifier n)]
  | .key k => some [.literal k]
  | .param n => some [.param n]

def first : Piece → Option Char
  | .fixed text => text.toList.head?
  | .name _ => some '"'
  | .key _ => some '\''
  | .param _ => some '$'

end Piece

def renderPieces : List Piece → String
  | [] => ""
  | piece :: pieces => piece.text ++ renderPieces pieces

def templateTokens : List Piece → Option (List SqlToken)
  | [] => some []
  | piece :: pieces => do
      let now ← piece.tokens
      let later ← templateTokens pieces
      some (now ++ later)

/-- The statement reads as the pieces, unless a name is empty, and its placeholders are
`numbers`. -/
def ReadsAs (sql : String) (pieces : List Piece) (numbers : List Nat) : Prop :=
  lex sql = templateTokens pieces ∧ (templateTokens pieces = none ↔ Piece.name "" ∈ pieces) ∧
    ∀ tokens, templateTokens pieces = some tokens → params tokens = numbers

@[simp] theorem renderPieces_nil : renderPieces [] = "" := rfl

@[simp] theorem renderPieces_cons (piece : Piece) (pieces : List Piece) :
    renderPieces (piece :: pieces) = piece.text ++ renderPieces pieces := rfl

@[simp] theorem renderPieces_append (ps qs : List Piece) :
    renderPieces (ps ++ qs) = renderPieces ps ++ renderPieces qs := by
  induction ps with
  | nil => simp
  | cons p ps ih => simp [ih, String.append_assoc]

/-- The placeholders in the tokens of a piece that can be read.  A fixed text is given by its
characters, on which the lexer is evaluated. -/
inductive Piece.Readable : Piece → List Nat → Prop
  | fixed {c : Char} {cs : List Char} {numbers : List Nat}
      (h : (lexFrom .start (c :: cs)).map params = some numbers) :
      Readable (.fixed (String.ofList (c :: cs))) numbers
  | name {name : String} (h : '\x00' ∉ name.toList) : Readable (.name name) []
  | key {key : String} (h : '\x00' ∉ key.toList) : Readable (.key key) []
  | param (n : Nat) : Readable (.param n) [n]

def closesAt (cs : List Char) (c : Char) : Bool :=
  match run .start cs with
  | some (_, st) => decide (step st c = close st c)
  | none => false

/-- The first piece ends where the second one starts. -/
inductive Joins : Piece → Piece → Prop
  | fixed {cs : List Char} {piece : Piece} {c : Char} (hfirst : piece.first = some c)
      (hclose : closesAt cs c = true) : Joins (.fixed (String.ofList cs)) piece
  | name {name : String} {c : Char} {cs : List Char} (h : c ≠ '"') :
      Joins (.name name) (.fixed (String.ofList (c :: cs)))
  | key {key : String} {cs : List Char}
      (h : (cs.dropWhile isSqlSpace).head?.any (· ≠ '\'') = true) :
      Joins (.key key) (.fixed (String.ofList cs))
  | param {n : Nat} {c : Char} {cs : List Char} (h : isWordChar c = false) :
      Joins (.param n) (.fixed (String.ofList (c :: cs)))

theorem Piece.first_ofList (c : Char) (cs : List Char) :
    (Piece.fixed (String.ofList (c :: cs))).first = some c := by
  simp [Piece.first]

theorem Piece.toList_of_first {piece : Piece} {c : Char} (h : piece.first = some c) :
    ∃ cs, piece.text.toList = c :: cs := by
  cases piece with
  | fixed text =>
      cases htext : text.toList with
      | nil => simp [Piece.first, htext] at h
      | cons d ds =>
          obtain rfl : d = c := by simpa [Piece.first, htext] using h
          exact ⟨ds, htext⟩
  | name name =>
      cases h
      exact ⟨doubled '"' name.toList ++ ['"'], by simp [Piece.text, quoted]⟩
  | key key =>
      cases h
      exact ⟨doubled '\'' key.toList ++ ['\''], by simp [Piece.text, quoted]⟩
  | param n =>
      cases h
      exact ⟨Nat.toDigits 10 n, by simp [Piece.text]⟩

theorem Piece.Readable.run_text {piece : Piece} {numbers : List Nat}
    (h : piece.Readable numbers) :
    ∃ ts st, run .start piece.text.toList = some (ts, st) ∧
      piece.tokens = (finish st).map (ts ++ ·) ∧ (piece.tokens = none ↔ piece = .name "") ∧
      ∀ tokens, piece.tokens = some tokens → params tokens = numbers := by
  cases h with
  | @fixed c cs _ h =>
      obtain ⟨tokens, htokens, hparams⟩ := Option.map_eq_some_iff.mp h
      have htext : (Piece.fixed (String.ofList (c :: cs))).tokens = some tokens := by
        rw [Piece.tokens, lex, String.toList_ofList, htokens]
      obtain ⟨read, hrun, hlast⟩ := Option.bind_eq_some_iff.mp htokens
      obtain ⟨last, hfinish, heq⟩ := Option.bind_eq_some_iff.mp hlast
      cases heq
      refine ⟨read.1, read.2, ?_, ?_, ?_, ?_⟩
      · rw [Piece.text, String.toList_ofList, hrun]
      · rw [htext, hfinish]
        rfl
      · rw [htext]
        exact iff_of_false nofun nofun
      · intro tokens htokens
        rw [htext] at htokens
        rw [← Option.some.inj htokens]
        exact hparams
  | @name name h =>
      have htokens : (Piece.name name).tokens = finish (.identQuote name.toList.reverse) := by
        rw [finish, List.reverse_reverse, identToken_toList, Piece.tokens]
      refine ⟨[], _, run_quoted_ident h, ?_, ?_, ?_⟩
      · rw [htokens]
        simp
      · simp [Piece.tokens]
      · intro tokens htokens
        obtain ⟨-, heq⟩ := Option.ite_none_left_eq_some.mp htokens
        rw [← Option.some.inj heq]
        rfl
  | @key key h =>
      refine ⟨[], _, run_quoted_literal h, by simp [Piece.tokens, finish],
        iff_of_false nofun nofun, ?_⟩
      intro tokens htokens
      rw [← Option.some.inj htokens]
      rfl
  | param n =>
      refine ⟨[], _, run_placeholder n, ?_, iff_of_false nofun nofun, ?_⟩
      · simp [Piece.tokens, finish]
      · intro tokens htokens
        rw [← Option.some.inj htokens]
        rfl

theorem Joins.separates {p q : Piece} {numbers : List Nat} {ts : List SqlToken} {st : LexState}
    (hjoin : Joins p q) (hread : p.Readable numbers)
    (hrun : run .start p.text.toList = some (ts, st)) (rest : List Char) :
    Separates st (q.text.toList ++ rest) := by
  cases hjoin with
  | @fixed cs _ c hfirst hclose =>
      obtain ⟨ds, hds⟩ := Piece.toList_of_first hfirst
      rw [Piece.text, String.toList_ofList] at hrun
      rw [hds]
      refine separates_cons ?_
      simpa [closesAt, hrun] using hclose
  | @name name c cs h =>
      cases hread with
      | name hnul =>
          cases hrun.symm.trans (run_quoted_ident hnul)
          rw [Piece.text, String.toList_ofList]
          exact separates_cons (by simp [step, h])
  | @key key cs h =>
      cases hread with
      | key hnul =>
          cases hrun.symm.trans (run_quoted_literal hnul)
          rw [Piece.text, String.toList_ofList]
          obtain ⟨d, hd, hne⟩ : ∃ d, (cs.dropWhile isSqlSpace).head? = some d ∧ d ≠ '\'' := by
            simpa [Option.any_eq_true] using h
          have hdrop : ((cs ++ rest).dropWhile isSqlSpace).head? = some d := by
            rw [List.dropWhile_append]
            cases hcs : cs.dropWhile isSqlSpace with
            | nil => simp [hcs] at hd
            | cons e es => simpa [hcs] using hd
          refine separates_literalQuote (by simpa [hdrop] using hne) ?_
          intro hquote
          have hspace : isSqlSpace '\'' = false := by decide
          cases hcs : cs ++ rest with
          | nil => simp [hcs] at hquote
          | cons e es =>
              obtain rfl : e = '\'' := by simpa [hcs] using hquote
              rw [hcs, List.dropWhile_cons_of_neg (by simp [hspace])] at hdrop
              exact hne (by simpa using hdrop.symm)
  | @param n c cs h =>
      cases hread with
      | param =>
          cases hrun.symm.trans (run_placeholder n)
          rw [Piece.text, String.toList_ofList]
          have hdigit : c.isDigit = false := by
            simp only [isWordChar, Bool.or_eq_false_iff] at h
            exact h.1.2
          exact separates_cons (by simp [step, h, hdigit])

inductive Readable : List Piece → List Nat → Prop
  | nil : Readable [] []
  | cons {piece : Piece} {pieces : List Piece} {numbers later : List Nat}
      (hpiece : piece.Readable numbers) (hpieces : Readable pieces later) :
      Readable (piece :: pieces) (numbers ++ later)

theorem Readable.append {ps qs : List Piece} {ms ns : List Nat} (hps : Readable ps ms)
    (hqs : Readable qs ns) : Readable (ps ++ qs) (ms ++ ns) := by
  induction hps with
  | nil => exact hqs
  | cons hpiece hpieces ih =>
      rw [List.append_assoc]
      exact Readable.cons hpiece ih

namespace Readable

variable {pieces : List Piece} {numbers : List Nat}

theorem numbered {c : Char} {cs : List Char} {now : List Nat}
    (h : (lexFrom .start (c :: cs)).map params = some now) (hrest : Readable pieces numbers) :
    Readable (.fixed (String.ofList (c :: cs)) :: pieces) (now ++ numbers) :=
  Readable.cons (.fixed h) hrest

theorem fixed {c : Char} {cs : List Char}
    (h : (lexFrom .start (c :: cs)).map params = some []) (hrest : Readable pieces numbers) :
    Readable (.fixed (String.ofList (c :: cs)) :: pieces) numbers :=
  numbered h hrest

theorem name {name : String} (h : '\x00' ∉ name.toList) (hrest : Readable pieces numbers) :
    Readable (.name name :: pieces) numbers :=
  Readable.cons (.name h) hrest

theorem key {key : String} (h : '\x00' ∉ key.toList) (hrest : Readable pieces numbers) :
    Readable (.key key :: pieces) numbers :=
  Readable.cons (.key h) hrest

theorem param {n : Nat} (hrest : Readable pieces numbers) :
    Readable (.param n :: pieces) (n :: numbers) :=
  Readable.cons (.param n) hrest

end Readable

theorem readsAs_renderPieces {pieces : List Piece} {numbers : List Nat}
    (hread : Readable pieces numbers) (hjoin : pieces.IsChain Joins) :
    ReadsAs (renderPieces pieces) pieces numbers := by
  induction hread with
  | nil =>
      refine ⟨rfl, iff_of_false nofun List.not_mem_nil, ?_⟩
      rintro tokens ⟨⟩
      rfl
  | @cons piece pieces numbers later hpiece hpieces ih =>
      obtain ⟨hlex, hnone, hparams⟩ := ih hjoin.tail
      obtain ⟨ts, st, hrun, htokens, hempty, hnumbers⟩ := hpiece.run_text
      have hends : Separates st (renderPieces pieces).toList := by
        cases hpieces with
        | nil => exact separates_nil st
        | @cons next rest =>
            rw [renderPieces_cons, String.toList_append]
            exact (List.isChain_cons_cons.mp hjoin).1.separates hpiece hrun _
      have htemplate : templateTokens (piece :: pieces) =
          piece.tokens.bind fun now => (templateTokens pieces).map (now ++ ·) := by
        rw [templateTokens]
        cases piece.tokens <;> cases templateTokens pieces <;> rfl
      refine ⟨?_, ?_, ?_⟩
      · have hlexed : lexFrom .start (renderPieces pieces).toList = templateTokens pieces := hlex
        rw [htemplate, htokens, lex, renderPieces_cons, String.toList_append,
          lexFrom_append hrun, hends, hlexed]
        cases finish st <;> cases templateTokens pieces <;> simp
      · rw [htemplate, List.mem_cons, @eq_comm _ (Piece.name ""), ← hempty, ← hnone]
        cases piece.tokens <;> cases templateTokens pieces <;> simp
      · intro tokens heq
        rw [htemplate] at heq
        obtain ⟨now, hnow, heq⟩ := Option.bind_eq_some_iff.mp heq
        obtain ⟨rest, hrest, rfl⟩ := Option.map_eq_some_iff.mp heq
        rw [params, List.filterMap_append]
        exact congrArg₂ (· ++ ·) (hnumbers now hnow) (hparams rest hrest)

/-! ## Sequences of pieces -/

section Sequences

variable {cs ds : List Char} {c : Char} {p q : Piece}

theorem Joins.texts (h : closesAt cs c = true) :
    Joins (.fixed (String.ofList cs)) (.fixed (String.ofList (c :: ds))) :=
  Joins.fixed (Piece.first_ofList c ds) h

theorem Joins.clean (h : (run .start cs).map Prod.snd = some .start) (hfirst : q.first = some c) :
    Joins (.fixed (String.ofList cs)) q := by
  obtain ⟨read, hrun, hstate⟩ := Option.map_eq_some_iff.mp h
  refine Joins.fixed hfirst ?_
  cases henter : enter c <;> simp [closesAt, hrun, hstate, step, close, finish, henter]

/-- A text without placeholders that ends before a space, a comma or a bracket. -/
inductive PlainText : String → Prop
  | intro {c : Char} {cs : List Char} (hread : (lexFrom .start (c :: cs)).map params = some [])
      (hclose : [' ', '\n', ',', ')'].all (closesAt (c :: cs)) = true) :
      PlainText (String.ofList (c :: cs))

theorem PlainText.readable {text : String} (h : PlainText text) {pieces : List Piece}
    {numbers : List Nat} (hrest : Readable pieces numbers) :
    Readable (.fixed text :: pieces) numbers := by
  cases h with
  | intro hread _ => exact Readable.fixed hread hrest

theorem PlainText.joins {text : String} (h : PlainText text) (hc : c ∈ [' ', '\n', ',', ')']) :
    Joins (.fixed text) (.fixed (String.ofList (c :: ds))) := by
  cases h with
  | intro _ hclose => exact Joins.texts (List.all_eq_true.mp hclose c hc)

theorem PlainText.joins_of_clean {text : String} (h : PlainText text)
    (hclean : (run .start cs).map Prod.snd = some .start) :
    Joins (.fixed (String.ofList cs)) (.fixed text) := by
  cases h with
  | intro _ _ => exact Joins.clean hclean (Piece.first_ofList _ _)

def separated (sep : String) : List (List Piece) → List Piece
  | [] => []
  | block :: blocks => block ++ blocks.flatMap (.fixed sep :: ·)

@[simp] theorem separated_cons_cons (sep : String) (block following : List Piece)
    (blocks : List (List Piece)) :
    separated sep (block :: following :: blocks) =
      block ++ .fixed sep :: separated sep (following :: blocks) := rfl

theorem renderPieces_separated (sep : String) (blocks : List (List Piece)) :
    renderPieces (separated sep blocks) = sep.intercalate (blocks.map renderPieces) := by
  induction blocks with
  | nil => rfl
  | cons block blocks ih =>
      cases blocks with
      | nil => simp [separated]
      | cons following blocks =>
          rw [separated_cons_cons, renderPieces_append, renderPieces_cons, ih]
          simp [Piece.text, String.append_assoc]

theorem separated_readable {sep : String} (hsep : ∀ {pieces : List Piece},
      Readable pieces [] → Readable (.fixed sep :: pieces) [])
    {blocks : List (List Piece)} (h : ∀ block ∈ blocks, Readable block []) :
    Readable (separated sep blocks) [] := by
  induction blocks with
  | nil => exact .nil
  | cons block blocks ih =>
      obtain ⟨hblock, hblocks⟩ := List.forall_mem_cons.mp h
      cases blocks with
      | nil => exact hblock.append .nil
      | cons following blocks =>
          rw [separated_cons_cons]
          exact hblock.append (hsep (ih hblocks))

/-- If each block fits between the pieces around it, the blocks with the text between them
do. -/
theorem separated_cons_isChain {prev next : Piece} {sep : String} {block : List Piece}
    {blocks : List (List Piece)}
    (h : ∀ b ∈ block :: blocks, ∀ p ∈ [prev, .fixed sep], ∀ q ∈ [.fixed sep, next],
      List.IsChain Joins (p :: b ++ [q])) :
    List.IsChain Joins (prev :: separated sep (block :: blocks) ++ [next]) := by
  induction blocks generalizing prev block with
  | nil => simpa [separated] using h block (by simp) prev (by simp) next (by simp)
  | cons following blocks ih =>
      rw [separated_cons_cons, ← List.cons_append, List.append_assoc, List.cons_append]
      refine List.isChain_split.mpr ⟨h block (by simp) prev (by simp) _ (by simp), ih ?_⟩
      intro other hother p hp
      refine h other (List.mem_cons_of_mem _ hother) p ?_
      simp only [List.mem_cons, List.not_mem_nil, or_false, or_self] at hp
      simp [hp]

theorem separated_isChain {prev next : Piece} {sep : String} {blocks : List (List Piece)}
    (hempty : Joins prev next)
    (h : ∀ block ∈ blocks, ∀ p ∈ [prev, .fixed sep], ∀ q ∈ [.fixed sep, next],
      List.IsChain Joins (p :: block ++ [q])) :
    List.IsChain Joins (prev :: separated sep blocks ++ [next]) := by
  cases blocks with
  | nil => exact .cons_cons hempty (.singleton next)
  | cons block blocks => exact separated_cons_isChain h

def prefixed (sep : String) (blocks : List (List Piece)) : List Piece :=
  blocks.flatMap (.fixed sep :: ·)

theorem prefixed_readable {sep : String} (hsep : ∀ {pieces : List Piece},
      Readable pieces [] → Readable (.fixed sep :: pieces) [])
    {blocks : List (List Piece)} (h : ∀ block ∈ blocks, Readable block []) :
    Readable (prefixed sep blocks) [] := by
  cases blocks with
  | nil => exact .nil
  | cons block blocks => exact hsep (separated_readable hsep h)

theorem prefixed_isChain {prev next : Piece} {sep : String} {blocks : List (List Piece)}
    (hempty : Joins prev next) (hprev : Joins prev (.fixed sep))
    (h : ∀ block ∈ blocks, ∀ q ∈ [.fixed sep, next],
      List.IsChain Joins (.fixed sep :: block ++ [q])) :
    List.IsChain Joins (prev :: (prefixed sep blocks ++ [next])) := by
  cases blocks with
  | nil => exact .cons_cons hempty (.singleton next)
  | cons block blocks =>
      refine .cons_cons hprev (separated_cons_isChain ?_)
      intro b hb p hp q hq
      obtain rfl : p = .fixed sep := by simpa using hp
      exact h b hb q hq

end Sequences

end Solarix.Core
