import WaveCollapse.Registry
import WaveCollapse.System.Basic
import WaveCollapse.Topology.Grid

/-! # Showing a grid

A grid is drawn on a terminal while a search goes on, and saved as text when it is finished. -/

namespace WaveCollapse.Terminal

/-! ## Text on a terminal

Colours and weight are written as escape sequences around the text they hold for; a
terminal that is not one, or does not want them, gets the text alone. -/

/-- The colours of a terminal. -/
inductive Hue where
  | black
  | red
  | green
  | yellow
  | blue
  | magenta
  | cyan
  | white
deriving DecidableEq, Inhabited

/-- The position of a colour in the palette of the terminal. -/
def Hue.rank : Hue → Nat
  | black => 0
  | red => 1
  | green => 2
  | yellow => 3
  | blue => 4
  | magenta => 5
  | cyan => 6
  | white => 7

/-- How a text looks. -/
structure Style where
  bold : Bool := false
  hue : Option Hue := none
  bright : Bool := false
deriving DecidableEq, Inhabited

/-- A text in a colour. -/
def Style.colored (hue : Hue) (bright : Bool := false) : Style := { hue := some hue, bright }

/-- The codes of a style, the weight before the colour. -/
def Style.codes (s : Style) : List String :=
  (if s.bold then ["1"] else []) ++
    match s.hue with
    | some hue => [toString ((if s.bright then 90 else 30) + hue.rank)]
    | none => []

/-- A text in a style; without `color` the style does not show. -/
def styled (color : Bool) (s : Style) (text : String) : String :=
  if color then "\x1b[" ++ ";".intercalate s.codes ++ "m" ++ text ++ "\x1b[0m" else text

/-- A text with blanks after it, up to a width. -/
def padRight (width : Nat) (text : String) : String :=
  text ++ String.ofList (List.replicate (width - text.length) ' ')

/-- A text with blanks in front of it, up to a width. -/
def padLeft (width : Nat) (text : String) : String :=
  String.ofList (List.replicate (width - text.length) ' ') ++ text

end WaveCollapse.Terminal

namespace WaveCollapse

/-! ## Drawings of a grid

A drawing shows one character for each cell, the northernmost row first: the glyph of the
module on a resolved cell, a point on an open one and an exclamation mark on one that has
no state left. Glyphs are handed out to the modules in the order of their declaration and
listed in a legend, which the first frame shows. -/

/-- The waves over the cells of the grid that a system is laid over: one row of cells after
the other, the southernmost first. -/
def Grid.waveRows (g : Grid) (s : System Nat) : List (List (Option Wave)) :=
  let numbering := s.problem.numbering
  (List.range g.height).map fun y =>
    (List.range g.width).map fun x =>
      ((g.indexOf x y).bind (numbering[·]?)).bind (s.waves[·]?)

/-- Draws the cells of a grid. -/
structure Drawing where
  registry : Registry
  color : Bool
  /-- The frames shown so far. -/
  frames : Nat := 0

namespace Drawing
open Terminal

/-- The characters that stand for modules, in the order in which they are handed out. -/
def glyphs : List Char :=
  "0123456789abcdefghijklmnopqrstuvwxyzABCDEFGHIJKLMNOPQRSTUVWXYZ".toList

/-- The colours that glyphs take turns in. -/
def palette : List Style :=
  [.red, .green, .yellow, .blue, .magenta, .cyan].map (Style.colored ·) ++
    [.red, .green, .yellow, .blue, .magenta, .cyan].map (Style.colored · true)

/-- The glyph of the module declared at place `i`; when they run out modules share one. -/
def glyph (i : Nat) : Char := glyphs.getD i '*'

variable (d : Drawing)

/-- The glyph and name of every module. -/
def legend : String :=
  " ".intercalate (d.registry.modules.zipIdx.map fun (m, i) => s!"{glyph i}={m.name}")

/-- A character in a style. -/
def paint (style : Style) (c : Char) : String := styled d.color style c.toString

/-- The character for a wave; a cell without a wave looks as one without a state. -/
def cell (wave : Option Wave) : String :=
  match wave.filter (!·.isEmpty) with
  | none => d.paint (.colored .red true) '!'
  | some w =>
    match w.resolvedState with
    | none => d.paint (.colored .black true) '.'
    | some p =>
      match d.registry.modules.findIdx? (·.state == p) with
      | some i => d.paint (palette.getD (i % palette.length) default) (glyph i)
      | none => d.paint (.colored .white) '?'

/-- One row of cells. -/
def row (waves : List (Option Wave)) : String := String.join (waves.map d.cell) ++ "\n"

/-- All rows, the northernmost first. -/
def render (g : Grid) (s : System Nat) : String :=
  String.join ((g.waveRows s).reverse.map d.row)

/-- The next frame: its text, and the drawing that has shown it. -/
def frame (g : Grid) (s : System Nat) : String × Drawing :=
  let opening := if d.frames = 0 then s!"Legend: {d.legend}\n" else ""
  let title := s!"--- Frame {d.frames} ({s.resolvedCount}/{s.size} resolved) ---\n"
  (opening ++ title ++ d.render g s, { d with frames := d.frames + 1 })

end Drawing

/-! ## The text of a finished grid

One line for each row of cells, the northernmost first, with the names of the modules
separated by single spaces. Only resolved cells have a name. -/

/-- A cell that is not resolved, and how many states it still has. -/
structure Unresolved where
  x : Nat
  y : Nat
  candidates : Nat
deriving DecidableEq, Inhabited

namespace GridText

variable (r : Registry)

/-- The name of a state: its module's, or its number if it has no module. -/
def stateName (p : Nat) : String := (r.nameOf p).getD s!"#{p}"

/-- The name on the cell `(x, y)`. -/
def cell (x y : Nat) (wave : Option Wave) : Except Unresolved String :=
  match wave.bind Wave.resolvedState with
  | some p => .ok (stateName r p)
  | none => .error ⟨x, y, (wave.map Wave.popcount).getD 0⟩

/-- The names in row `y`, west to east. -/
def row (y : Nat) (waves : List (Option Wave)) : Except Unresolved (List String) :=
  waves.zipIdx.mapM fun (wave, x) => cell r x y wave

/-- The line of one row. -/
def line (names : List String) : String := " ".intercalate names ++ "\n"

/-- The lines of the given rows, up to the first row with an unresolved cell. -/
def linesOf : List (List (Option Wave) × Nat) → String × Except Unresolved Unit
  | [] => ("", .ok ())
  | (waves, y) :: rest =>
    match row r y waves with
    | .error e => ("", .error e)
    | .ok names =>
      let (text, result) := linesOf rest
      (line names ++ text, result)

/-- The text of the grid as far as it can be written, and whether that was all of it. -/
def write (g : Grid) (s : System Nat) : String × Except Unresolved Unit :=
  linesOf r (g.waveRows s).zipIdx.reverse

end GridText

end WaveCollapse
