/-!
# Colored output

Lines are shown in colors by the kind of what they say, but only where a person reads them: output
that goes to a file holds no escape codes, and a person can ask for none.
-/

namespace ScriptAgent

/-- A color, one for each kind of line. -/
inductive Color where
  /-- For errors. -/
  | red
  /-- For banners. -/
  | green
  /-- For answers. -/
  | yellow
  /-- For prompts and links. -/
  | blue
deriving DecidableEq, Inhabited

/-- The escape code that begins a color. -/
def Color.code : Color → String
  | .red => "\x1b[91m"
  | .green => "\x1b[92m"
  | .yellow => "\x1b[33m"
  | .blue => "\x1b[94m"

/-- The escape code that ends a color. -/
def Color.reset : String := "\x1b[0m"

/-- Where output goes. -/
structure Terminal where
  /-- Whether a person reads the output, if that is known. -/
  isInteractive : Option Bool
  /-- The value of the variable that asks for no colors. -/
  noColor : Option String
deriving DecidableEq, Inhabited

namespace Terminal

/-- Output to a file. -/
def file : Terminal := ⟨some false, none⟩

/-- Whether output is colored. An empty value of the variable asks for nothing. -/
def usesColor (t : Terminal) : Bool :=
  (t.noColor.getD "").isEmpty && t.isInteractive.getD false

/-- A text in a color. -/
def paint (t : Terminal) (color : Color) (text : String) : String :=
  if t.usesColor then color.code ++ text ++ Color.reset else text

/-- A line of texts of which the first one is colored. -/
def line (t : Terminal) (color : Color) (text : String) (more : List String)
    (separator ending : String) : String :=
  String.intercalate separator (t.paint color text :: more) ++ ending

end Terminal

/-- The line about an error. -/
def errorLine (message : String) : String := "⚠️ " ++ message

end ScriptAgent
