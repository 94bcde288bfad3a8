import Persai.CodeUnits
import Persai.Search

/-!
# An assistant's Markdown as Telegram HTML

One paragraph is converted in three passes, for inline code, links and bold text. What a pass has
converted is put away in a slot, and a stash mark stands for it until all passes are done.

`isAllowedHttpUrl` is a parameter: the reader of URLs is the platform's.
-/

namespace Persai.TelegramHtml

open CodeUnits (Text ofString isWhitespace trimEnd)

def stashOpen : UInt16 := 0xE000

def stashClose : UInt16 := 0xE001

/-- `replace(/x/g, new)` for one character. -/
def replaceUnit (old : UInt16) (new text : Text) : Text :=
  text.flatMap fun u => if u = old then new else [u]

def escapeTelegramHtmlText (text : Text) : Text :=
  replaceUnit 62 (ofString "&gt;") (replaceUnit 60 (ofString "&lt;")
    (replaceUnit 38 (ofString "&amp;") text))

def escapeHtmlAttrValue (text : Text) : Text :=
  replaceUnit 34 (ofString "&quot;") (escapeTelegramHtmlText text)

/-! ## Fenced code -/

def isAlphanumeric (u : UInt16) : Bool := CodeUnits.isWord u && u != 95

/-- `FENCE_INFO_LINE`: `/^[A-Za-z0-9][A-Za-z0-9_#.+-]*$/` -/
def isFenceInfoLine : Text → Bool
  | [] => false
  | first :: rest => isAlphanumeric first && rest.all fun u =>
      CodeUnits.isWord u || u == 35 || u == 46 || u == 43 || u == 45

/-- `LANGUAGE_ALIASES` -/
def languageAliases : List (Text × Text) :=
  [("c++", "cpp"), ("c#", "csharp"), ("f#", "fsharp"), ("objective-c", "objc"),
    ("objectivec", "objc"), ("js", "javascript"), ("ts", "typescript"), ("py", "python"),
    ("sh", "bash"), ("shell", "bash"), ("zsh", "bash"), ("yml", "yaml"), ("rs", "rust"),
    ("kt", "kotlin")].map fun entry => (ofString entry.1, ofString entry.2)

/-- `replace(/[^a-z0-9]+/g, "-")`; `inRun` behind a character that was replaced. -/
def hyphenate : (inRun : Bool) → Text → Text
  | _, [] => []
  | inRun, u :: rest =>
    if (97 ≤ u && u ≤ 122) || (48 ≤ u && u ≤ 57) then u :: hyphenate false rest
    else if inRun then hyphenate true rest else 45 :: hyphenate true rest

/-- `replace(/^-|-$/g, "")` -/
def dropOuterHyphens (text : Text) : Text :=
  let text := if text.head? = some 45 then text.tail else text
  if text.getLast? = some 45 then text.dropLast else text

/-- A language is written in ASCII here. The aliases are looked up in an object, where
`constructor` is found on its prototype: that is no string, and `replace` throws. -/
def normalizeTelegramLanguageId (raw : Text) : Option Text :=
  let value := (CodeUnits.trim raw).map CodeUnits.lowerAscii
  if value = [] then some []
  else if value = ofString "constructor" then none
  else some (dropOuterHyphens (hyphenate false ((languageAliases.lookup value).getD value)))

/-- With the language normalized. -/
def fencedHtml (langNorm code : Text) : Text :=
  if langNorm ≠ [] then
    ofString "<pre><code class=\"language-" ++ langNorm ++ ofString "\">" ++
      escapeTelegramHtmlText code ++ ofString "</code></pre>"
  else ofString "<pre>" ++ escapeTelegramHtmlText code ++ ofString "</pre>"

def fencedBlockToHtml (language code : Text) : Option Text :=
  (normalizeTelegramLanguageId language).map fun langNorm => fencedHtml langNorm code

/-! ## One paragraph -/

def stashMark (index : ℕ) : Text := stashOpen :: (ofString (toString index) ++ [stashClose])

/-- The slots with one more, and the mark for it. -/
def stash (slots : List Text) (html : Text) : List Text × Text :=
  (slots ++ [html], stashMark slots.length)

def isDigit (u : UInt16) : Bool := 48 ≤ u && u ≤ 57

def numberOf (digits : Text) : ℕ := digits.foldl (fun n u => 10 * n + (u.toNat - 48)) 0

/-- `/\uE000\d+\uE001/` -/
def matchMark : Text → Option (ℕ × ℕ)
  | u :: rest =>
    let digits := rest.takeWhile isDigit
    if u = stashOpen ∧ digits ≠ [] ∧ (rest.drop digits.length).head? = some stashClose then
      some (numberOf digits, digits.length + 1)
    else none
  | [] => none

def unstashAndEscapeLiterals (source : Text) (slots : List Text) : Text :=
  (replaceAll matchMark (fun _ index => ((), slots[index]?.getD []))
    (fun u => escapeTelegramHtmlText [u]) () source).2

/-- A backtick, what is between it and the next one, and that. -/
def matchCode : Text → Option (Text × ℕ)
  | u :: rest =>
    let code := rest.takeWhile (· != 96)
    if u = 96 ∧ code ≠ [] ∧ code.length < rest.length then some (code, code.length + 1) else none
  | [] => none

structure Link where
  full : Text
  label : Text
  url : Text

/-- `/\[([^\]]*)\]\(([^)\s]+)\)/` -/
def matchLink : Text → Option (Link × ℕ)
  | u :: rest =>
    let label := rest.takeWhile (· != 93)
    let afterLabel := rest.drop (label.length + 1)
    let afterOpen := afterLabel.tail
    let url := afterOpen.takeWhile fun u => u != 41 && !isWhitespace u
    if u = 91 ∧ label.length < rest.length ∧ afterLabel.head? = some 40 ∧ url ≠ [] ∧
        (afterOpen.drop url.length).head? = some 41 then
      let length := label.length + 1 + 1 + url.length + 1
      some (⟨u :: rest.take length, label, url⟩, length)
    else none
  | [] => none

structure Bold where
  full : Text
  inner : Text

/-- `/\*\*([\s\S]+?)\*\*/` -/
def matchBold (text : Text) : Option (Bold × ℕ) :=
  if [42, 42].isPrefixOf text then
    (indexOf [42, 42] (text.drop 3)).map fun index =>
      (⟨text.take (index + 5), (text.drop 2).take (index + 1)⟩, index + 4)
  else none

section

variable (isAllowedHttpUrl : Text → Bool)

def stashCode (slots : List Text) (source : Text) : List Text × Text :=
  replaceAll matchCode
    (fun slots code =>
      stash slots (ofString "<code>" ++ escapeTelegramHtmlText code ++ ofString "</code>"))
    (fun u => [u]) slots source

def stashLinks (slots : List Text) (source : Text) : List Text × Text :=
  replaceAll matchLink
    (fun slots link =>
      if isAllowedHttpUrl link.url then
        stash slots (ofString "<a href=\"" ++ escapeHtmlAttrValue link.url ++ ofString "\">" ++
          escapeTelegramHtmlText link.label ++ ofString "</a>")
      else (slots, link.full))
    (fun u => [u]) slots source

def applyBoldStashed (slots : List Text) (source : Text) : List Text × Text :=
  replaceAll matchBold
    (fun slots bold =>
      if bold.inner.contains stashOpen then (slots, bold.full)
      else
        stash slots
          (ofString "<b>" ++ unstashAndEscapeLiterals bold.inner slots ++ ofString "</b>"))
    (fun u => [u]) slots source

def fence : Text := [96, 96, 96]

/-- A paragraph that is fenced; `inner` is what stands between the fences. -/
def convertFenced (inner : Text) : Option Text :=
  match indexOf [10] inner with
  | none =>
    let token := CodeUnits.trim inner
    if isFenceInfoLine token then fencedBlockToHtml token [] else fencedBlockToHtml [] inner
  | some newline =>
    let infoLine := trimEnd (inner.take newline)
    let code := inner.drop (newline + 1)
    if infoLine = [] ∨ isFenceInfoLine infoLine then fencedBlockToHtml infoLine code
    else fencedBlockToHtml [] inner

def convertInline (trimmed : Text) : Text :=
  let code := stashCode [] trimmed
  let links := stashLinks isAllowedHttpUrl code.1 code.2
  let bold := applyBoldStashed links.1 links.2
  unstashAndEscapeLiterals bold.2 bold.1

/-- Where the text between the fences begins, and where it ends. -/
def fencedInner (trimmed : Text) : Option Text :=
  if fence.isPrefixOf trimmed ∧ 6 ≤ trimmed.length then
    match lastIndexOf fence trimmed with
    | some closeInner => if 3 < closeInner then some ((trimmed.take closeInner).drop 3) else none
    | none => none
  else none

/-- Nothing where it throws. -/
def convertAssistantParagraphToTelegramHtml (paragraph : Text) : Option Text :=
  let trimmed := CodeUnits.trim paragraph
  if trimmed = [] then some []
  else
    match fencedInner trimmed with
    | some inner => convertFenced inner
    | none => some (convertInline isAllowedHttpUrl trimmed)

end

end Persai.TelegramHtml
