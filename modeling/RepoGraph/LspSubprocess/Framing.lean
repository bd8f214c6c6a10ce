import RepoGraph.Indexer.Types
import RepoGraph.Lib.ByteLines

/-! The messages of a language server, as they are framed on its standard streams: what is written, and what the
reader thread makes of the bytes that come. -/

namespace RepoGraph.LspSubprocess

open Lib Lib.ByteLines Indexer

inductive TransportError
  | io (message : String)
  | json (message : String)
  | invalidHeader (line : String)
  | missingContentLength
  | processExited
  deriving DecidableEq, Repr

def TransportError.text : TransportError → String
  | .io message => "io error: " ++ message
  | .json message => "json error: " ++ message
  | .invalidHeader line => "invalid header: " ++ line
  | .missingContentLength => "missing content-length"
  | .processExited => "process exited"

inductive ReaderMessage
  | message (value : Json)
  | error (text : String)
  | shutdown

section Writing

variable (toText : Json → String)

def framed (body : List UInt8) : List UInt8 :=
  Wire.utf8 ("Content-Length: " ++ toString body.length ++ "\r\n\r\n") ++ body

def requestBody (id : ℤ) (method : String) (params : Json) : Json :=
  .object [("jsonrpc", .string "2.0"), ("id", .number (toString id)),
    ("method", .string method), ("params", params)]

def notificationBody (method : String) (params : Json) : Json :=
  .object [("jsonrpc", .string "2.0"), ("method", .string method), ("params", params)]

def writeRequest (id : ℤ) (method : String) (params : Json) : List UInt8 :=
  framed (Wire.utf8 (toText (requestBody id method params)))

def writeNotification (method : String) (params : Json) : List UInt8 :=
  framed (Wire.utf8 (toText (notificationBody method params)))

end Writing

section Reading

def isLineEnd (c : Char) : Bool := c = '\r' || c = '\n'

def notUtf8 : String := "stream did not contain valid UTF-8"

def notFilled : String := "failed to fill whole buffer"

inductive Header
  | blank
  | other
  | length (n : ℕ)
  | invalid
  deriving DecidableEq, Repr

def lengthHeader : String := "Content-Length:"

def parseHeader (line : String) : Header :=
  if line = "" then .blank
  else
    match Text.stripPrefix line lengthHeader with
    | none => .other
    | some value =>
      match parseUnsigned 64 (Text.trim value) with
      | none => .invalid
      | some n => .length n

def readHeaders (contentLength : Option ℕ) (bytes : List UInt8) : Except TransportError (Option ℕ) × List UInt8 :=
  if h : bytes = [] then (.error .processExited, bytes)
  else
    have := length_readLine h
    match Wire.ofUtf8 (readLine bytes).1 with
    | none => (.error (.io notUtf8), (readLine bytes).2)
    | some text =>
      match parseHeader (Text.trimEndBy isLineEnd text) with
      | .blank => (.ok contentLength, (readLine bytes).2)
      | .other => readHeaders contentLength (readLine bytes).2
      | .length n => readHeaders (some n) (readLine bytes).2
      | .invalid => (.error (.invalidHeader (Text.trimEndBy isLineEnd text)), (readLine bytes).2)
termination_by bytes.length

inductive ReadEnd
  | message (value : Json)
  | failed (e : TransportError)
  | panicked

/-- No buffer is larger than this; one that is asked for ends the thread. -/
def isizeMax : ℕ := 2 ^ 63 - 1

variable (fromSlice : List UInt8 → Except String Json)

def readBody (body : List UInt8) : ReadEnd :=
  match fromSlice body with
  | .ok value => .message value
  | .error e => .failed (.json e)

def readMessageBlocking (bytes : List UInt8) : ReadEnd × List UInt8 :=
  match readHeaders none bytes with
  | (.error e, rest) => (.failed e, rest)
  | (.ok none, rest) => (.failed .missingContentLength, rest)
  | (.ok (some length), rest) =>
    if isizeMax < length then (.panicked, rest)
    else if rest.length < length then (.failed (.io notFilled), [])
    else (readBody fromSlice (rest.take length), rest.drop length)

lemma length_readHeaders_le (contentLength : Option ℕ) (bytes : List UInt8) :
    (readHeaders contentLength bytes).2.length ≤ bytes.length := by
  fun_induction readHeaders contentLength bytes with
  | case1 => exact le_rfl
  | case2 _ _ _ hlt => exact hlt.le
  | case3 _ _ _ hlt => exact hlt.le
  | case4 _ _ _ hlt _ _ _ ih => exact ih.trans hlt.le
  | case5 _ _ _ hlt _ _ _ _ ih => exact ih.trans hlt.le
  | case6 _ _ _ hlt => exact hlt.le

lemma length_readHeaders (contentLength : Option ℕ) {bytes : List UInt8} (h : bytes ≠ []) :
    (readHeaders contentLength bytes).2.length < bytes.length := by
  have hline := length_readLine h
  rw [readHeaders, dif_neg h]
  dsimp only
  split
  · exact hline
  · split
    · exact hline
    · exact (length_readHeaders_le _ _).trans_lt hline
    · exact (length_readHeaders_le _ _).trans_lt hline
    · exact hline

lemma length_readMessageBlocking {bytes rest : List UInt8} {e : ReadEnd}
    (h : readMessageBlocking fromSlice bytes = (e, rest)) (hexit : e ≠ .failed .processExited) :
    rest.length < bytes.length := by
  have hne : bytes ≠ [] := by
    rintro rfl
    rw [readMessageBlocking, readHeaders] at h
    exact hexit (Prod.mk.inj h).1.symm
  have hheaders := length_readHeaders none hne
  unfold readMessageBlocking at h
  split at h
  · rename_i hr
    rw [hr] at hheaders
    exact (Prod.mk.inj h).2 ▸ hheaders
  · rename_i hr
    rw [hr] at hheaders
    exact (Prod.mk.inj h).2 ▸ hheaders
  · rename_i hr
    rw [hr] at hheaders
    split_ifs at h
    · exact (Prod.mk.inj h).2 ▸ hheaders
    · rw [← (Prod.mk.inj h).2]
      exact Nat.zero_lt_of_lt hheaders
    · rw [← (Prod.mk.inj h).2, List.length_drop]
      exact (Nat.sub_le _ _).trans_lt hheaders

/-- What the reader thread sends of all the bytes that come, when nobody hangs up. A thread that panics just
ends. -/
def readerLoop (bytes : List UInt8) : List ReaderMessage :=
  match h : readMessageBlocking fromSlice bytes with
  | (.message value, rest) =>
    have := length_readMessageBlocking fromSlice h (by simp)
    .message value :: readerLoop rest
  | (.panicked, _) => []
  | (.failed e, rest) =>
    if hexit : e = .processExited then [.shutdown]
    else
      have := length_readMessageBlocking fromSlice h (by simpa using hexit)
      .error e.text :: readerLoop rest
termination_by bytes.length

variable {fromSlice} {bytes rest : List UInt8}

lemma readerLoop_message {value : Json} (h : readMessageBlocking fromSlice bytes = (.message value, rest)) :
    readerLoop fromSlice bytes = .message value :: readerLoop fromSlice rest := by
  rw [readerLoop]
  split
  · rename_i heq
    obtain ⟨hvalue, rfl⟩ := Prod.mk.inj (h.symm.trans heq)
    rw [ReadEnd.message.inj hvalue]
  · rename_i heq
    cases h.symm.trans heq
  · rename_i heq
    cases h.symm.trans heq

lemma readerLoop_failed {e : TransportError} (h : readMessageBlocking fromSlice bytes = (.failed e, rest))
    (hexit : e ≠ .processExited) : readerLoop fromSlice bytes = .error e.text :: readerLoop fromSlice rest := by
  rw [readerLoop]
  split
  · rename_i heq
    cases h.symm.trans heq
  · rename_i heq
    cases h.symm.trans heq
  · rename_i heq
    obtain ⟨he, rfl⟩ := Prod.mk.inj (h.symm.trans heq)
    obtain rfl := ReadEnd.failed.inj he
    rw [dif_neg hexit]

lemma readerLoop_exited (h : readMessageBlocking fromSlice bytes = (.failed .processExited, rest)) :
    readerLoop fromSlice bytes = [.shutdown] := by
  rw [readerLoop]
  split
  · rename_i heq
    cases h.symm.trans heq
  · rename_i heq
    cases h.symm.trans heq
  · rename_i heq
    obtain rfl := ReadEnd.failed.inj (Prod.mk.inj (h.symm.trans heq)).1
    rw [dif_pos rfl]

lemma readerLoop_panicked (h : readMessageBlocking fromSlice bytes = (.panicked, rest)) :
    readerLoop fromSlice bytes = [] := by
  rw [readerLoop]
  split
  · rename_i heq
    cases h.symm.trans heq
  · rfl
  · rename_i heq
    cases h.symm.trans heq

end Reading

section Chunks

/-- A line of text, without its line feed, that is read as a header of a kind. -/
structure Line (kind : Header → Prop) where
  text : String
  oneLine : '\n' ∉ text.toList
  kind : kind (parseHeader (Text.trimEndBy isLineEnd text))

/-- The reader goes on behind a length and behind any other line; a server may have written that one for people. -/
def GoesOn (h : Header) : Prop := h = .other ∨ ∃ n, h = .length n

def Line.header {kind : Header → Prop} (l : Line kind) : Header := parseHeader (Text.trimEndBy isLineEnd l.text)

def Line.bytes {kind : Header → Prop} (l : Line kind) : List UInt8 := Wire.utf8 l.text ++ [lineFeed]

def declare (contentLength : Option ℕ) (l : Line GoesOn) : Option ℕ :=
  match l.header with
  | .length n => some n
  | _ => contentLength

def declared (headers : List (Line GoesOn)) : Option ℕ := headers.foldl declare none

/-- The pieces of a stream that the reader takes one by one: a message, and what can stand in its place. -/
inductive Chunk
  | frame (headers : List (Line GoesOn)) (blank : Line (· = .blank)) (body : List UInt8)
      (length : declared headers = some body.length) (fits : body.length ≤ isizeMax)
  | noLength (headers : List (Line GoesOn)) (blank : Line (· = .blank)) (length : declared headers = none)
  | invalid (headers : List (Line GoesOn)) (line : Line (· = .invalid))
  | notText (headers : List (Line GoesOn)) (line : List UInt8) (oneLine : lineFeed ∉ line)
      (notText : Wire.ofUtf8 (line ++ [lineFeed]) = none)

def Chunk.bytes : Chunk → List UInt8
  | .frame headers blank body _ _ => headers.flatMap Line.bytes ++ (blank.bytes ++ body)
  | .noLength headers blank _ => headers.flatMap Line.bytes ++ blank.bytes
  | .invalid headers line => headers.flatMap Line.bytes ++ line.bytes
  | .notText headers line _ _ => headers.flatMap Line.bytes ++ (line ++ [lineFeed])

variable (fromSlice : List UInt8 → Except String Json)

def sentBody (body : List UInt8) : ReaderMessage :=
  match fromSlice body with
  | .ok value => .message value
  | .error e => .error (TransportError.json e).text

def Chunk.sent : Chunk → ReaderMessage
  | .frame _ _ body _ _ => sentBody fromSlice body
  | .noLength .. => .error TransportError.missingContentLength.text
  | .invalid _ line => .error (TransportError.invalidHeader (Text.trimEndBy isLineEnd line.text)).text
  | .notText .. => .error (TransportError.io notUtf8).text

lemma readHeaders_of_readLine {bytes line rest : List UInt8} (contentLength : Option ℕ) (hne : bytes ≠ [])
    (hline : readLine bytes = (line, rest)) :
    readHeaders contentLength bytes =
      match Wire.ofUtf8 line with
      | none => (.error (.io notUtf8), rest)
      | some text =>
        match parseHeader (Text.trimEndBy isLineEnd text) with
        | .blank => (.ok contentLength, rest)
        | .other => readHeaders contentLength rest
        | .length n => readHeaders (some n) rest
        | .invalid => (.error (.invalidHeader (Text.trimEndBy isLineEnd text)), rest) := by
  rw [readHeaders, dif_neg hne]
  simp only [hline]

lemma readHeaders_line {kind : Header → Prop} (l : Line kind) (contentLength : Option ℕ) (rest : List UInt8) :
    readHeaders contentLength (l.bytes ++ rest) =
      match l.header with
      | .blank => (.ok contentLength, rest)
      | .other => readHeaders contentLength rest
      | .length n => readHeaders (some n) rest
      | .invalid => (.error (.invalidHeader (Text.trimEndBy isLineEnd l.text)), rest) := by
  have hne : l.bytes ++ rest ≠ [] := by simp [Line.bytes]
  have hline : readLine (l.bytes ++ rest) = (Wire.utf8 (l.text ++ "\n"), rest) := by
    rw [Line.bytes, List.append_assoc, List.singleton_append,
      readLine_terminated (not_mem_utf8 l.oneLine), utf8_append]
    rfl
  have htrim : Text.trimEndBy isLineEnd (l.text ++ "\n") = Text.trimEndBy isLineEnd l.text := by
    rw [Text.trimEndBy, Text.trimEndBy, String.toList_append]
    congr 1
    exact List.rdropWhile_concat_pos _ _ _ rfl
  rw [readHeaders_of_readLine contentLength hne hline, Wire.ofUtf8_utf8]
  simp only [htrim]
  rfl

lemma readHeaders_goesOn (l : Line GoesOn) (contentLength : Option ℕ) (rest : List UInt8) :
    readHeaders contentLength (l.bytes ++ rest) = readHeaders (declare contentLength l) rest := by
  rw [readHeaders_line]
  rcases l.kind with h | ⟨n, h⟩
  · simp only [declare, Line.header, h]
  · simp only [declare, Line.header, h]

lemma readHeaders_lines (headers : List (Line GoesOn)) (contentLength : Option ℕ) (rest : List UInt8) :
    readHeaders contentLength (headers.flatMap Line.bytes ++ rest) =
      readHeaders (headers.foldl declare contentLength) rest := by
  induction headers generalizing contentLength with
  | nil => rfl
  | cons l headers ih =>
    rw [List.flatMap_cons, List.append_assoc, readHeaders_goesOn, ih, List.foldl_cons]

lemma readHeaders_notText (contentLength : Option ℕ) {line : List UInt8} (honeLine : lineFeed ∉ line)
    (hnotText : Wire.ofUtf8 (line ++ [lineFeed]) = none) (rest : List UInt8) :
    readHeaders contentLength (line ++ [lineFeed] ++ rest) = (.error (.io notUtf8), rest) := by
  have hline : readLine (line ++ [lineFeed] ++ rest) = (line ++ [lineFeed], rest) := by
    rw [List.append_assoc, List.singleton_append, readLine_terminated honeLine]
  rw [readHeaders_of_readLine contentLength (by simp) hline, hnotText]

lemma readMessageBlocking_chunk (c : Chunk) (rest : List UInt8) :
    ∃ e, readMessageBlocking fromSlice (c.bytes ++ rest) = (e, rest) ∧
      ((∃ value, e = .message value ∧ c.sent fromSlice = .message value) ∨
        ∃ err, e = .failed err ∧ err ≠ .processExited ∧ c.sent fromSlice = .error err.text) := by
  cases c with
  | frame headers blank body length fits =>
    have hheaders : readHeaders none (headers.flatMap Line.bytes ++ (blank.bytes ++ (body ++ rest))) =
        (.ok (some body.length), body ++ rest) := by
      rw [readHeaders_lines, readHeaders_line, Line.header, blank.kind]
      simp only [← length, declared]
    refine ⟨readBody fromSlice body, ?_, ?_⟩
    · rw [Chunk.bytes, List.append_assoc, List.append_assoc, readMessageBlocking, hheaders]
      simp only [Nat.not_lt_of_le fits, if_false, List.length_append, Nat.not_lt_of_le (Nat.le_add_right _ _),
        List.take_left, List.drop_left]
    · rw [readBody, Chunk.sent, sentBody]
      cases fromSlice body with
      | ok value => exact .inl ⟨value, rfl, rfl⟩
      | error e => exact .inr ⟨.json e, rfl, by simp, rfl⟩
  | noLength headers blank length =>
    refine ⟨.failed .missingContentLength, ?_, .inr ⟨_, rfl, by simp, rfl⟩⟩
    rw [Chunk.bytes, List.append_assoc, readMessageBlocking, readHeaders_lines,
      readHeaders_line, Line.header, blank.kind, ← declared, length]
  | invalid headers line =>
    refine ⟨.failed (.invalidHeader _), ?_, .inr ⟨_, rfl, by simp, rfl⟩⟩
    rw [Chunk.bytes, List.append_assoc, readMessageBlocking, readHeaders_lines,
      readHeaders_line, Line.header, line.kind]
  | notText headers line oneLine notText =>
    refine ⟨.failed (.io notUtf8), ?_, .inr ⟨_, rfl, by simp, rfl⟩⟩
    rw [Chunk.bytes, List.append_assoc, readMessageBlocking, readHeaders_lines,
      readHeaders_notText _ oneLine notText]

lemma readerLoop_chunks (chunks : List Chunk) (tail : List UInt8) :
    readerLoop fromSlice (chunks.flatMap Chunk.bytes ++ tail) = chunks.map (Chunk.sent fromSlice) ++
      readerLoop fromSlice tail := by
  induction chunks with
  | nil => rfl
  | cons c chunks ih =>
    obtain ⟨e, hread, hsent⟩ := readMessageBlocking_chunk fromSlice c (chunks.flatMap Chunk.bytes ++ tail)
    rw [List.flatMap_cons, List.append_assoc, List.map_cons, List.cons_append, ← ih]
    rcases hsent with ⟨value, rfl, hsent⟩ | ⟨err, rfl, hexit, hsent⟩
    · rw [readerLoop_message hread, hsent]
    · rw [readerLoop_failed hread hexit, hsent]

lemma readerLoop_nil : readerLoop fromSlice [] = [.shutdown] := by
  have hread : readMessageBlocking fromSlice [] = (.failed .processExited, []) := by
    rw [readMessageBlocking, readHeaders, dif_pos rfl]
  exact readerLoop_exited hread

lemma readerLoop_stream (chunks : List Chunk) :
    readerLoop fromSlice (chunks.flatMap Chunk.bytes) = chunks.map (Chunk.sent fromSlice) ++ [.shutdown] := by
  have h := readerLoop_chunks fromSlice chunks []
  rw [List.append_nil, readerLoop_nil] at h
  exact h

end Chunks

section Streams

def Line.cut {kind : Header → Prop} (l : Line kind) : List UInt8 := Wire.utf8 l.text

/-- The headers end at an empty line, which the end of the stream may cut off, before what is to be the body. -/
inductive BlankEnd : List UInt8 → List UInt8 → Prop
  | line (blank : Line (· = .blank)) (body : List UInt8) : BlankEnd (blank.bytes ++ body) body
  | cut (blank : Line (· = .blank)) (started : blank.text ≠ "") : BlankEnd blank.cut []

variable (fromSlice : List UInt8 → Except String Json)

/-- The end of a stream in which no piece is whole, and what is sent of it. -/
inductive Incomplete : List UInt8 → List ReaderMessage → Prop
  | headers (headers : List (Line GoesOn)) : Incomplete (headers.flatMap Line.bytes) [.shutdown]
  | header (headers : List (Line GoesOn)) (line : Line GoesOn) :
    Incomplete (headers.flatMap Line.bytes ++ line.cut) [.shutdown]
  | invalid (headers : List (Line GoesOn)) (line : Line (· = .invalid)) :
    Incomplete (headers.flatMap Line.bytes ++ line.cut)
      [.error (TransportError.invalidHeader (Text.trimEndBy isLineEnd line.text)).text, .shutdown]
  | notText (headers : List (Line GoesOn)) (line : List UInt8) (oneLine : lineFeed ∉ line)
      (notText : Wire.ofUtf8 line = none) :
    Incomplete (headers.flatMap Line.bytes ++ line) [.error (TransportError.io notUtf8).text, .shutdown]
  | noLength (headers : List (Line GoesOn)) (blank : Line (· = .blank)) (started : blank.text ≠ "")
      (length : declared headers = none) :
    Incomplete (headers.flatMap Line.bytes ++ blank.cut)
      [.error TransportError.missingContentLength.text, .shutdown]
  | noBody (headers : List (Line GoesOn)) (blank : Line (· = .blank)) (started : blank.text ≠ "")
      (length : declared headers = some 0) :
    Incomplete (headers.flatMap Line.bytes ++ blank.cut) [sentBody fromSlice [], .shutdown]
  | short (headers : List (Line GoesOn)) (tail body : List UInt8) (n : ℕ) (blank : BlankEnd tail body)
      (length : declared headers = some n) (short : body.length < n) (fits : n ≤ isizeMax) :
    Incomplete (headers.flatMap Line.bytes ++ tail) [.error (TransportError.io notFilled).text, .shutdown]
  | oversized (headers : List (Line GoesOn)) (tail body : List UInt8) (n : ℕ) (blank : BlankEnd tail body)
      (length : declared headers = some n) (large : isizeMax < n) :
    Incomplete (headers.flatMap Line.bytes ++ tail) []

lemma readHeaders_nil (contentLength : Option ℕ) : readHeaders contentLength [] = (.error .processExited, []) := by
  rw [readHeaders, dif_pos rfl]

lemma readLine_of_not_mem {line : List UInt8} (h : lineFeed ∉ line) : readLine line = (line, []) := by
  rcases readLine_cases line with ⟨front, rest, -, rfl, -⟩ | ⟨-, hread⟩
  · exact absurd (List.mem_append_right _ List.mem_cons_self) h
  · exact hread

lemma readHeaders_cut {kind : Header → Prop} (l : Line kind) (hne : l.text ≠ "") (contentLength : Option ℕ) :
    readHeaders contentLength l.cut =
      match l.header with
      | .blank => (.ok contentLength, [])
      | .invalid => (.error (.invalidHeader (Text.trimEndBy isLineEnd l.text)), [])
      | _ => (.error .processExited, []) := by
  have hbytes : l.cut ≠ [] := by
    intro hnil
    have htext := Wire.ofUtf8_utf8 l.text
    rw [← Line.cut, hnil] at htext
    exact hne (Option.some.inj (htext.symm.trans (Wire.ofUtf8_utf8 "")))
  rw [readHeaders_of_readLine contentLength hbytes (readLine_of_not_mem (not_mem_utf8 l.oneLine)), Line.cut,
    Wire.ofUtf8_utf8]
  simp only [Line.header]
  cases parseHeader (Text.trimEndBy isLineEnd l.text) with
  | blank => rfl
  | invalid => rfl
  | other => exact readHeaders_nil _
  | length n => exact readHeaders_nil _

lemma readHeaders_blankEnd {tail body : List UInt8} (h : BlankEnd tail body) (contentLength : Option ℕ) :
    readHeaders contentLength tail = (.ok contentLength, body) := by
  cases h with
  | line blank => rw [readHeaders_line, Line.header, blank.kind]
  | cut blank started => rw [readHeaders_cut blank started, Line.header, blank.kind]

lemma readMessageBlocking_blankEnd {headers : List (Line GoesOn)} {tail body : List UInt8} {n : ℕ}
    (h : BlankEnd tail body) (hlength : declared headers = some n) :
    readMessageBlocking fromSlice (headers.flatMap Line.bytes ++ tail) =
      if isizeMax < n then (.panicked, body)
      else if body.length < n then (.failed (.io notFilled), [])
      else (readBody fromSlice (body.take n), body.drop n) := by
  rw [readMessageBlocking, readHeaders_lines, readHeaders_blankEnd h, ← declared, hlength]

lemma text_ne_empty {kind : Header → Prop} (l : Line kind) (h : l.header ≠ .blank) : l.text ≠ "" := by
  intro htext
  rw [Line.header, htext] at h
  exact h (by decide)

lemma readerLoop_last {bytes : List UInt8} {e : TransportError}
    (h : readMessageBlocking fromSlice bytes = (.failed e, [])) (hexit : e ≠ .processExited) :
    readerLoop fromSlice bytes = [.error e.text, .shutdown] := by
  rw [readerLoop_failed h hexit, readerLoop_nil]

lemma Incomplete.readerLoop {bytes : List UInt8} {last : List ReaderMessage}
    (h : Incomplete fromSlice bytes last) :
    readerLoop fromSlice bytes = last := by
  cases h with
  | headers headers =>
    have hlines := readHeaders_lines headers none []
    rw [List.append_nil, readHeaders_nil] at hlines
    exact readerLoop_exited (by rw [readMessageBlocking, hlines])
  | header headers line =>
    have hkind : line.header ≠ .blank := by
      rw [Line.header]
      rcases line.kind with h | ⟨n, h⟩ <;> simp [h]
    refine @readerLoop_exited fromSlice _ [] ?_
    rw [readMessageBlocking, readHeaders_lines, readHeaders_cut line (text_ne_empty line hkind), Line.header]
    rcases line.kind with h | ⟨n, h⟩ <;> rw [h]
  | invalid headers line =>
    have hkind : line.header ≠ .blank := by simp [Line.header, line.kind]
    refine readerLoop_last fromSlice ?_ (by simp)
    rw [readMessageBlocking, readHeaders_lines, readHeaders_cut line (text_ne_empty line hkind),
      Line.header, line.kind]
  | notText headers line oneLine notText =>
    have hne : line ≠ [] := by
      rintro rfl
      exact absurd notText (by decide)
    refine readerLoop_last fromSlice ?_ (by simp)
    rw [readMessageBlocking, readHeaders_lines,
      readHeaders_of_readLine _ hne (readLine_of_not_mem oneLine), notText]
  | noLength headers blank started length =>
    refine readerLoop_last fromSlice ?_ (by simp)
    rw [readMessageBlocking, readHeaders_lines, readHeaders_blankEnd (.cut blank started), ← declared, length]
  | noBody headers blank started length =>
    have hread := readMessageBlocking_blankEnd fromSlice (.cut blank started) length
    simp only [Nat.not_lt_zero, if_false, List.length_nil, List.take_nil, List.drop_nil] at hread
    rw [readBody] at hread
    rw [sentBody]
    cases hslice : fromSlice [] with
    | ok value =>
      rw [hslice] at hread
      rw [readerLoop_message hread, readerLoop_nil]
    | error e =>
      rw [hslice] at hread
      exact readerLoop_last fromSlice hread (by simp)
  | short headers tail body n blank length short fits =>
    refine readerLoop_last fromSlice ?_ (by simp)
    rw [readMessageBlocking_blankEnd fromSlice blank length, if_neg (Nat.not_lt_of_le fits), if_pos short]
  | oversized headers tail body n blank length large =>
    refine @readerLoop_panicked fromSlice _ body ?_
    rw [readMessageBlocking_blankEnd fromSlice blank length, if_pos large]

end Streams

section Written

def lengthText (n : ℕ) : String := "Content-Length: " ++ toString n ++ "\r"

-- by `rfl`, since the equation lemma of the definition takes seconds
lemma lengthText_eq (n : ℕ) : lengthText n = "Content-Length: " ++ toString n ++ "\r" := rfl

lemma isLineEnd_of_isDigit {c : Char} (h : c.isDigit = true) : isLineEnd c = false := by
  by_contra hend
  rw [Bool.not_eq_false, isLineEnd, Bool.or_eq_true, decide_eq_true_eq, decide_eq_true_eq] at hend
  rcases hend with rfl | rfl
  · exact absurd h (by decide)
  · exact absurd h (by decide)

lemma trimEnd_lengthText (n : ℕ) : Text.trimEndBy isLineEnd (lengthText n) = "Content-Length: " ++ toString n := by
  obtain ⟨front, d, hsplit⟩ : ∃ front d, (toString n).toList = front ++ [d] :=
    ⟨_, _, (List.dropLast_append_getLast (toString_ne_nil n)).symm⟩
  have hlast : isLineEnd d = false :=
    isLineEnd_of_isDigit (isDigit_of_mem_toString (hsplit ▸ List.mem_append_right _ List.mem_cons_self))
  apply String.toList_inj.mp
  rw [Text.trimEndBy, lengthText_eq, String.toList_ofList, String.toList_append, String.toList_append,
    hsplit, ← List.append_assoc, Text.rdropWhile_append_of_last hlast]
  exact List.append_nil _

lemma parseHeader_lengthText {n : ℕ} (h : n < 2 ^ 64) :
    parseHeader (Text.trimEndBy isLineEnd (lengthText n)) = .length n := by
  have hstrip : Text.stripPrefix ("Content-Length: " ++ toString n) lengthHeader = some (" " ++ toString n) := by
    have hlist : ("Content-Length: " ++ toString n).toList = lengthHeader.toList ++
        (" " ++ toString n).toList := by
      rw [String.toList_append, String.toList_append]
      rfl
    rw [Text.stripPrefix, Text.startsWith, hlist, if_pos (List.isPrefixOf_iff_prefix.mpr (List.prefix_append _ _)),
      List.drop_left, String.ofList_toList]
  have hne : "Content-Length: " ++ toString n ≠ "" := by
    intro hempty
    have hlist := congrArg String.toList hempty
    rw [String.toList_append] at hlist
    exact absurd hlist (by simp)
  rw [trimEnd_lengthText, parseHeader, if_neg hne, hstrip]
  simp only [trim_toString, parseUnsigned_toString h]

def lengthLine (n : ℕ) (h : n < 2 ^ 64) : Line GoesOn where
  text := lengthText n
  oneLine := by
    intro hbreak
    rw [lengthText_eq, String.toList_append, String.toList_append, List.mem_append, List.mem_append] at hbreak
    rcases hbreak with (hbreak | hbreak) | hbreak
    · exact absurd hbreak (by decide)
    · exact absurd (isDigit_of_mem_toString hbreak) (by decide)
    · exact absurd hbreak (by decide)
  kind := by
    rw [parseHeader_lengthText h]
    exact .inr ⟨n, rfl⟩

def blankLine : Line (· = .blank) := ⟨"\r", by decide, by decide⟩

lemma framed_eq (fromSlice : List UInt8 → Except String Json) {body : List UInt8} (fits : body.length ≤ isizeMax) :
    ∃ c : Chunk, c.bytes = framed body ∧ c.sent fromSlice = sentBody fromSlice body := by
  have hwidth : body.length < 2 ^ 64 := by
    have hmax : isizeMax < 2 ^ 64 := by decide
    omega
  have hdeclared : declared [lengthLine body.length hwidth] = some body.length := by
    rw [declared, List.foldl_cons, List.foldl_nil, declare, Line.header, lengthLine, parseHeader_lengthText hwidth]
  refine ⟨.frame [lengthLine body.length hwidth] blankLine body hdeclared fits, ?_, rfl⟩
  have hend : Wire.utf8 "\r\n\r\n" = Wire.utf8 "\r" ++ [lineFeed] ++ (Wire.utf8 "\r" ++ [lineFeed]) := by decide
  rw [Chunk.bytes, framed, List.flatMap_singleton, utf8_append, hend]
  change Wire.utf8 ("Content-Length: " ++ toString body.length ++ "\r") ++ [lineFeed] ++
    (Wire.utf8 "\r" ++ [lineFeed] ++ body) = _
  rw [utf8_append]
  simp only [List.append_assoc]

inductive Written
  | request (id : ℤ) (method : String) (params : Json)
  | notification (method : String) (params : Json)

def Written.json : Written → Json
  | .request id method params => requestBody id method params
  | .notification method params => notificationBody method params

variable (toText : Json → String) (fromSlice : List UInt8 → Except String Json)

def Written.body (w : Written) : List UInt8 := Wire.utf8 (toText w.json)

def Written.bytes : Written → List UInt8
  | .request id method params => writeRequest toText id method params
  | .notification method params => writeNotification toText method params

/-- A reader of what is written finds each message in it, whatever the bodies hold, and nothing of one in
another. -/
theorem reader_written (written : List {w : Written // (w.body toText).length ≤ isizeMax}) (tail : List UInt8) :
    readerLoop fromSlice ((written.flatMap fun w => w.1.bytes toText) ++ tail) =
      (written.map fun w => sentBody fromSlice (w.1.body toText)) ++ readerLoop fromSlice tail := by
  have hchunk : ∀ w : {w : Written // (w.body toText).length ≤ isizeMax},
      ∃ c : Chunk, c.bytes = w.1.bytes toText ∧ c.sent fromSlice = sentBody fromSlice (w.1.body toText) := by
    rintro ⟨w, fits⟩
    obtain ⟨c, hbytes, hsent⟩ := framed_eq fromSlice fits
    refine ⟨c, hbytes.trans ?_, hsent⟩
    cases w <;> rfl
  choose piece hbytes hsent using hchunk
  have hread := readerLoop_chunks fromSlice (written.map piece) tail
  rw [List.flatMap_map, List.map_map] at hread
  simp only [hbytes, Function.comp_def, hsent] at hread
  exact hread

def initializedText : String := "\x7b\"jsonrpc\":\"2.0\",\"method\":\"initialized\",\"params\":null\x7d"

theorem reader_written_notification :
    readerLoop (fun _ => .ok (notificationBody "initialized" .null))
        ((Written.notification "initialized" .null).bytes fun _ => initializedText) =
      [.message (notificationBody "initialized" .null), .shutdown] := by
  have hread := reader_written (fun _ => initializedText) (fun _ => .ok (notificationBody "initialized" .null))
    [⟨.notification "initialized" .null, by decide +kernel⟩] []
  rw [readerLoop_nil] at hread
  rw [List.append_nil] at hread
  exact hread

end Written

end RepoGraph.LspSubprocess
