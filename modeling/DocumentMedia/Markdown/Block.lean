import DocumentMedia.Markdown.Definition

/-! # Blocks

A document is read line by line into blocks. Quotes and list items hold blocks of their own, which
are read by the same rules one level deeper.
-/
namespace DocumentMedia.Markdown

open DocumentMedia.Text

/-- Reads the blocks from one line up to another. -/
abbrev Reader := Nat → Nat → BlockM Unit

/-- A kind of block: reads one that starts at the first line and lies before the second, or leaves
the state as it is. -/
abbrev BlockRule := Nat → Nat → BlockM Bool

/-- Goes to a line after a block was read. -/
def finishAt (line : Nat) (act : Blocks → Blocks) : BlockM Bool := do
  modify fun b => { act b with line := line }
  return true

def tableRow (cell : String) (columns : List (List Char)) (aligns : List String) (b : Blocks) :
    Blocks :=
  let cellAt (b : Blocks) (p : Nat × String) : Blocks :=
    let attrs : Fields := if p.2.isEmpty then [] else [("style", .str ("text-align:" ++ p.2))]
    ((b.opening (cell ++ "_open") cell attrs).inline (trim (columns.getD p.1 []))).closing
      (cell ++ "_close") cell
  let b := b.opening "tr_open" "tr" []
  let b := (aligns.zipIdx.map fun (a, i) => (i, a)).foldl cellAt b
  b.closing "tr_close" "tr"

/-- Greatest number of cells that may be added to short rows. -/
def maxAddedCells : Int := 0x10000

def tableRows (b : Blocks) (width : Nat) (stop : Nat) : Nat → Nat → Int → List (List (List Char))
  | 0, _, _ => []
  | fuel + 1, i, added =>
    if stop ≤ i || b.isOutdented i || b.interrupts .quote stop i then []
    else
      let row := trim (b.text i)
      if row.isEmpty || b.isCode i then []
      else
        let columns := Blocks.cells row
        let added := added + (width : Int) - columns.length
        if maxAddedCells < added then [] else columns :: tableRows b width stop fuel (i + 1) added

def tableBlock : BlockRule := fun start stop => do
  let b ← get
  match b.table? start stop with
  | none => return false
  | some head =>
    let rows := tableRows b head.columns.length stop (stop - start) (start + 2) 0
    finishAt (start + 2 + rows.length) fun b =>
      let b := (b.opening "table_open" "table" []).opening "thead_open" "thead" []
      let b := (tableRow "th" head.columns head.aligns b).closing "thead_close" "thead"
      let b :=
        if rows.isEmpty then b
        else
          let b := b.opening "tbody_open" "tbody" []
          (rows.foldl (fun b r => tableRow "td" r head.aligns b) b).closing "tbody_close" "tbody"
      b.closing "table_close" "table"

/-- The line behind the code that goes on from line `i`; `last` is the line behind the last code
line so far. -/
def codeEnd (b : Blocks) (stop : Nat) : Nat → Nat → Nat → Nat
  | 0, _, last => last
  | fuel + 1, i, last =>
    if stop ≤ i then last
    else if b.isEmpty i then codeEnd b stop fuel (i + 1) last
    else if b.isCode i then codeEnd b stop fuel (i + 1) (i + 1)
    else last

def codeBlock : BlockRule := fun start stop => do
  let b ← get
  if !b.isCode start then return false
  else
    let last := codeEnd b stop (stop - start) (start + 1) (start + 1)
    let text := b.contents start last (4 + b.indent) false ++ ['\n']
    finishAt last (·.push { type := "code_block", tag := "code", content := String.ofList text })

def isClosingFence (f : Fence) (line : List Char) : Bool :=
  let run := line.takeWhile (· = f.mark)
  f.length ≤ run.length && (line.drop run.length).all isSpace

/-- The line that ends a fenced block, and whether it is the closing fence. An outdented line ends
the block, and so does an empty line at the very end of the document. -/
def fenceEnd (b : Blocks) (f : Fence) (stop : Nat) : Nat → Nat → Nat × Bool
  | 0, i => (i, false)
  | fuel + 1, i =>
    if stop ≤ i then (i, false)
    else if !b.isEmpty i && b.isOutdented i then (i, false)
    else if b.src.size ≤ b.first i then (i, false)
    else if !b.isEmpty i && !b.isCode i && isClosingFence f (b.text i) then (i, true)
    else fenceEnd b f stop fuel (i + 1)

def fenceBlock : BlockRule := fun start stop => do
  let b ← get
  match b.fence? start with
  | none => return false
  | some f =>
    let (last, closed) := fenceEnd b f stop (stop + 1 - start) (start + 1)
    let text := b.contents (start + 1) last (b.line? start).indent true
    finishAt (if closed then last + 1 else last) (·.push
      { type := "fence", tag := "code", info := String.ofList f.info
        content := String.ofList text })

/-- Width of the blanks at the start of a text, given the width before it. -/
def blankWidth (offset : Nat) : Nat → List Char → Nat
  | width, [] => width
  | width, c :: cs => if isSpace c then blankWidth offset (widen width offset c) cs else width

/-- A line behind its quote mark and one optional blank. A tab that is wider than one column counts
as that blank and stays. -/
def behindQuoteMark (b : Blocks) (i : Nat) : Line :=
  let l := b.line? i
  let width := l.indent.toNat + 1
  let next := b.first i + 1
  let (skipped, blank, adjust) : Nat × Bool × Nat :=
    match if next < l.stop then b.src[next]? else none with
    | some ' ' => (1, true, 0)
    | some '\t' => if (l.offset + width) % 4 = 3 then (1, true, 0) else (0, true, 1)
    | _ => (0, false, 0)
  let start := next + skipped
  let rest := (b.src.extract start l.stop).toList
  let initial := width + skipped
  { start := start
    stop := l.stop
    shift := (rest.takeWhile isSpace).length
    indent := (blankWidth (l.offset + adjust) initial rest : Int) - initial
    offset := l.indent.toNat + 1 + (if blank then 1 else 0) }

/-- Moves into the lines of a quote, from line `i` on, and finds its end. Lines without a mark go
on lazily with a paragraph. -/
def enterQuote (stop : Nat) : Nat → Nat → BlockM Nat
  | 0, i => return i
  | fuel + 1, i => do
    let b ← get
    if stop ≤ i || b.isEmpty i then return i
    else if (b.text i).head? = some '>' && !b.isOutdented i then
      set (b.setLine i (behindQuoteMark b i))
      enterQuote stop fuel (i + 1)
    -- An empty line ended the paragraph, so there is none to go on with.
    else if b.isEmpty (i - 1) then return i
    else if b.interrupts .quote stop i then
      let l := b.line? i
      set { b.setLine i { l with indent := l.indent - b.indent } with limit := i }
      return i
    else
      set (b.setLine i { b.line? i with indent := -1 })
      enterQuote stop fuel (i + 1)

def quoteBlock (read : Reader) : BlockRule := fun start stop => do
  let b ← get
  if !b.isQuote start then return false
  else
    set (b.setLine start (behindQuoteMark b start))
    let last ← enterQuote stop (stop - start) (start + 1)
    modify fun c => { c.opening "blockquote_open" "blockquote" [] with indent := 0 }
    read start last
    modify fun c =>
      { c.closing "blockquote_close" "blockquote" with
        lines := b.lines, limit := b.limit, indent := b.indent }
    return true

def ruleBlock : BlockRule := fun start _ => do
  let b ← get
  if b.isRule start then finishAt (start + 1) (·.push { type := "hr", tag := "hr" })
  else return false

/-- Hides the paragraphs right inside the items of a list; `depth` counts the open elements. -/
def hideParagraphs : Nat → List BlockToken → List BlockToken
  | _, [] => []
  | depth, t :: ts =>
    match t.nesting with
    | .opens =>
      (if depth = 2 && t.type = "paragraph_open" then { t with hidden := true } else t) ::
        hideParagraphs (depth + 1) ts
    | .closes => t :: hideParagraphs (depth - 1) ts
    | .stands => t :: hideParagraphs depth ts

/-- Reads the content of a list item behind its mark; gives back whether the item is tight. -/
def listItem (read : Reader) (m : ListMark) (start stop : Nat) : BlockM Bool := do
  let b ← get
  let l := b.line? start
  let initial := l.indent.toNat + (m.next - b.first start)
  let rest := (b.src.extract m.next l.stop).toList
  let blanks := (rest.takeWhile isSpace).length
  let width := blankWidth l.offset initial rest
  let empty := l.stop ≤ m.next + blanks
  -- More than four columns of blanks begin code inside the item.
  let gap := if empty || 4 < width - initial then 1 else width - initial
  let inside : Blocks :=
    { b.opening "list_item_open" "li" [] with
      listIndent := b.indent, indent := (initial + gap : Nat), tight := true }
  set (inside.setLine start { l with shift := m.next + blanks - l.start, indent := width })
  if empty && inside.isEmpty (start + 1) then
    modify fun c => { c with line := min (c.line + 2) stop }
  else read start stop
  let tight := (← get).tight
  modify fun c =>
    { (c.closing "list_item_close" "li").setLine start l with
      indent := b.indent, listIndent := b.listIndent, tight := b.tight }
  return tight

def nextMark? (b : Blocks) (m : ListMark) (stop i : Nat) : Option ListMark :=
  if stop ≤ i || b.isOutdented i || b.isCode i || b.interrupts .list stop i then none
  else (if m.number.isSome then b.number? i else b.bullet? i).filter (·.mark = m.mark)

/-- Reads the items of a list; gives back whether all are tight and no empty line stands between
them. -/
def listItems (read : Reader) (stop : Nat) : Nat → ListMark → Nat → Bool → Bool → BlockM Bool
  | 0, _, _, tight, _ => return tight
  | fuel + 1, m, start, tight, endsEmpty => do
    let itemTight ← listItem read m start stop
    let tight := tight && itemTight && !endsEmpty
    let b ← get
    let endsEmpty := start + 1 < b.line && b.isEmpty (b.line - 1)
    match nextMark? b m stop b.line with
    | some next => listItems read stop fuel next b.line tight endsEmpty
    | none => return tight

def listBlock (read : Reader) : BlockRule := fun start stop => do
  let b ← get
  match b.listMark? false start with
  | none => return false
  | some m =>
    let (type, tag) := if m.number.isSome then ("ordered_list", "ol") else ("bullet_list", "ul")
    let attrs : Fields := match m.number with
      | some ds => if decimalNumber ds = 1 then [] else [("start", .int (decimalNumber ds))]
      | none => []
    set ({ b with tokens := #[] }.opening (type ++ "_open") tag attrs)
    let tight ← listItems read stop (stop + 1 - start) m start true false
    modify fun c =>
      let list := (c.closing (type ++ "_close") tag).tokens.toList
      { c with tokens := b.tokens ++ (if tight then hideParagraphs 0 list else list).toArray }
    return true

def definitionBlock : BlockRule := fun start _ => do
  let b ← get
  if !b.dialect.constructs || b.isCode start then return false
  else
    match b.text start with
    | '[' :: _ =>
      let l := b.line? start
      let line := (b.src.extract (b.first start + 1) (l.stop + 1)).toList
      match definition? line (b.following b.limit (start + 1)) with
      | none => return false
      | some (key, target, taken) =>
        finishAt (start + 1 + taken) fun b =>
          if (Assoc.find? b.definitions key).isSome then b
          else { b with definitions := b.definitions ++ [(key, target)] }
    | _ => return false

/-- The line behind a block of raw markup. A line that is outdented ends it, unless it is empty. -/
def markupEnd (b : Blocks) (e : BlockEnd) (stop : Nat) : Nat → Nat → Nat
  | 0, i => i
  | fuel + 1, i =>
    if stop ≤ i || (b.isOutdented i && !b.isEmpty i) then i
    else if e.isOn (b.text i) then if b.isEmpty i then i else i + 1
    else markupEnd b e stop fuel (i + 1)

def markupBlock : BlockRule := fun start stop => do
  let b ← get
  match b.markup? start with
  | none => return false
  | some (e, _) =>
    let last :=
      if e.isOn (b.text start) then start + 1 else markupEnd b e stop (stop - start) (start + 1)
    finishAt last (·.push
      { type := "html_block", content := String.ofList (b.contents start last b.indent true) })

def pushHeading (level : Nat) (content : List Char) (b : Blocks) : Blocks :=
  let tag := "h" ++ toString level
  ((b.opening "heading_open" tag []).inline content).closing "heading_close" tag

def headingBlock : BlockRule := fun start _ => do
  let b ← get
  match b.heading? start with
  | none => return false
  | some h => finishAt (start + 1) (pushHeading h.level h.content)

def underline? (b : Blocks) (i : Nat) : Option Nat :=
  match b.text i with
  | c :: cs =>
    if (c = '-' || c = '=') && !b.isOutdented i && (cs.dropWhile (· = c)).all isSpace then
      some (if c = '=' then 1 else 2)
    else none
  | [] => none

/-- The underline that ends the paragraph before line `i`: its line, its level. -/
def findUnderline (b : Blocks) (stop : Nat) : Nat → Nat → Option (Nat × Nat)
  | 0, _ => none
  | fuel + 1, i =>
    if stop ≤ i || b.isEmpty i then none
    else if 3 < b.inner i then findUnderline b stop fuel (i + 1)
    else
      match underline? b i with
      | some level => some (i, level)
      | none =>
        if (b.line? i).indent < 0 || !b.interrupts .paragraph stop i then
          findUnderline b stop fuel (i + 1)
        else none

def underlinedBlock : BlockRule := fun start stop => do
  let b ← get
  if !b.dialect.constructs || b.isCode start then return false
  else
    match findUnderline b stop (stop - start) (start + 1) with
    | none => return false
    | some (last, level) =>
      finishAt (last + 1) (pushHeading level (trim (b.contents start last b.indent false)))

def directiveBlock : BlockRule := fun start _ => do
  let b ← get
  match b.directive? start with
  | none => return false
  | some r =>
    finishAt (start + 1) (·.push
      { type := "leaf_directive"
        content := String.ofList (strip (b.text start))
        directive := ⟨String.ofList r.name, r.label.map String.ofList,
          r.attributes.map fun (k, v) => (k, .str v)⟩ })

/-- The line behind a paragraph that has reached line `i`. -/
def paragraphEnd (b : Blocks) : Nat → Nat → Nat
  | 0, i => i
  | fuel + 1, i =>
    if b.limit ≤ i || b.isEmpty i then i
    else if 3 < b.inner i || (b.line? i).indent < 0 || !b.interrupts .paragraph b.limit i then
      paragraphEnd b fuel (i + 1)
    else i

def paragraphBlock : BlockRule := fun start _ => do
  let b ← get
  let last := paragraphEnd b (b.limit + 1 - start) (start + 1)
  let text := trim (b.contents start last b.indent false)
  finishAt last fun b =>
    ((b.opening "paragraph_open" "p" []).inline text).closing "paragraph_close" "p"

/-- The kinds of blocks in the order in which they are tried; any line starts a paragraph. -/
def blockRules (readQuote readItem : Reader) : List BlockRule :=
  [tableBlock, codeBlock, fenceBlock, quoteBlock readQuote, ruleBlock, listBlock readItem,
    definitionBlock, markupBlock, headingBlock, underlinedBlock, directiveBlock, paragraphBlock]

def firstRule (start stop : Nat) : List BlockRule → BlockM Bool
  | [] => return false
  | r :: rs => do if ← r start stop then return true else firstRule start stop rs

/-- Reads blocks up to a line; `loose` says that an empty line was passed. -/
def blockLoop (rules : List BlockRule) (stop : Nat) : Nat → Nat → Bool → BlockM Unit
  | 0, _, _ => return
  | fuel + 1, line, loose => do
    if stop ≤ line then return
    let b ← get
    let line := b.skipEmpty (b.limit + 1 - line) line
    set { b with line := line }
    if stop ≤ line || b.isOutdented line then return
    let _ ← firstRule line stop rules
    modify fun b => { b with tight := !loose }
    let b ← get
    let line := b.line
    let loose := loose || (line ≤ stop && b.isEmpty (line - 1))
    if line < stop && b.isEmpty line then
      set { b with line := line + 1 }
      blockLoop rules stop fuel (line + 1) true
    else blockLoop rules stop fuel line loose

/-- Too deep for blocks: everything up to the end is dropped. -/
def dropBlocks : Reader := fun start stop => do
  let b ← get
  if start < stop then
    let line := b.skipEmpty (b.limit + 1 - start) start
    set { b with line := if stop ≤ line || b.isOutdented line then line else stop }

/-- Reads blocks with the given depth left. A list takes two levels, a quote takes one. -/
def readBlocks : Nat → Reader
  | 0 => dropBlocks
  | 1 => fun start stop => blockLoop (blockRules (readBlocks 0) (readBlocks 0)) stop
      (stop + 1 - start) start false
  | depth + 2 => fun start stop =>
      blockLoop (blockRules (readBlocks (depth + 1)) (readBlocks depth)) stop (stop + 1 - start)
        start false

end DocumentMedia.Markdown
