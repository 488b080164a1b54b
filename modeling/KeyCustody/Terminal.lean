namespace KeyCustody.Terminal

/-! # Lines for the terminal

Each kind of line has one look. With colors a part of it stands between an escape
sequence that sets a style and the one that ends it; without colors only the part
itself is written. -/

inductive Stream where
  | output
  | error
  deriving DecidableEq, Repr

/-- A line and where it goes. -/
structure Line where
  stream : Stream
  text : String
  deriving DecidableEq, Repr

inductive Style where
  | bold
  | dim
  | red
  | green
  | yellow
  | cyan
  deriving DecidableEq, Repr

def Style.code : Style → Nat
  | .bold => 1
  | .dim => 2
  | .red => 31
  | .green => 32
  | .yellow => 33
  | .cyan => 36

/-- The sequence `ESC [ code m`. -/
def escape (code : Nat) : String := "\x1b[" ++ toString code ++ "m"

/-- A text in a style, if colors are shown. -/
def paint (colors : Bool) (style : Style) (text : String) : String :=
  if colors then escape style.code ++ text ++ escape 0 else text

def success (colors : Bool) (text : String) : Line :=
  ⟨.output, paint colors .green "✓" ++ " " ++ text⟩

def error (colors : Bool) (text : String) : Line :=
  ⟨.error, paint colors .red "✗" ++ " " ++ text⟩

def warning (colors : Bool) (text : String) : Line :=
  ⟨.output, paint colors .yellow "⚠" ++ " " ++ text⟩

def hint (colors : Bool) (text : String) : Line :=
  ⟨.error, paint colors .cyan "→" ++ " " ++ paint colors .cyan text⟩

def header (colors : Bool) (title : String) : Line :=
  ⟨.output, paint colors .bold title⟩

/-- A label with a value. -/
def pair (colors : Bool) (label value : String) : Line :=
  ⟨.output, "  " ++ paint colors .dim label ++ "  " ++ paint colors .bold value⟩

def ruleWidth : Nat := 56

def rule (colors : Bool) : Line :=
  ⟨.output, paint colors .dim (String.ofList (List.replicate ruleWidth '─'))⟩

def dimmed (colors : Bool) (text : String) : Line :=
  ⟨.output, paint colors .dim text⟩

/-- A text as it is. -/
def plain (text : String) : Line := ⟨.output, text⟩

def blank : Line := ⟨.output, ""⟩

/-- A key id within a line. -/
def key (colors : Bool) (id : String) : String := paint colors .cyan id

/-- A count within a line. -/
def count (colors : Bool) (number : Nat) : String := paint colors .bold (toString number)

/-- What the lines of one stream look like one below the other. -/
def transcript (stream : Stream) (lines : List Line) : String :=
  String.join ((lines.filter fun line => line.stream = stream).map fun line => line.text ++ "\n")

end KeyCustody.Terminal
