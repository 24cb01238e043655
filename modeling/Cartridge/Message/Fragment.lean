import Cartridge.Text.Numeral

/-!
# Fragments of messages

A message is a list of fragments: runs of text, colours, button pictures and
control codes. Characters that follow one another are one run.
-/
namespace Cartridge.Message

inductive TextColor
  | standard
  | red
  | green
  | blue
  | lightBlue
  | pink
  | yellow
  | black
  | silver
  | orange
deriving DecidableEq

namespace TextColor

def label : TextColor → String
  | standard => "Default"
  | red => "Red"
  | green => "Green"
  | blue => "Blue"
  | lightBlue => "LightBlue"
  | pink => "Pink"
  | yellow => "Yellow"
  | black => "Black"
  | silver => "Silver"
  | orange => "Orange"

def all : List TextColor :=
  [standard, red, green, blue, lightBlue, pink, yellow, black, silver, orange]

end TextColor

/-- A button that the font has a picture of. -/
inductive Button
  | a
  | b
  | c
  | l
  | r
  | z
  | cUp
  | cDown
  | cLeft
  | cRight
  | triangle
  | controlStick
  | dPad
deriving DecidableEq

namespace Button

def label : Button → String
  | a => "A"
  | b => "B"
  | c => "C"
  | l => "L"
  | r => "R"
  | z => "Z"
  | cUp => "CUp"
  | cDown => "CDown"
  | cLeft => "CLeft"
  | cRight => "CRight"
  | triangle => "Triangle"
  | controlStick => "ControlStick"
  | dPad => "DPad"

/-- The buttons in the order of every font. -/
def all : List Button :=
  [a, b, c, l, r, z, cUp, cDown, cLeft, cRight, triangle, controlStick, dPad]

end Button

/-- What a message tells the game to do. -/
inductive Control
  | newLine
  | stop
  | boxBreak
  | boxBreakDelayed
  | boxBreak2
  | carriageReturn
  | shift
  | goto
  | quickTextOn
  | quickTextOff
  | persistent
  | event
  | awaitButton
  | fade
  | fade2
  | proceed
  | delay
  | delayEnd
  | playerName
  | ocarina
  | sound
  | itemIcon
  | textSpeed
  | background
  | marathonTime
  | raceTime
  | points
  | goldSkulltulas
  | swampCruiseHits
  | strayFairies
  | reserved
  | unskippable
  | twoChoice
  | threeChoice
  | fishWeight
  | highScore
  | time
  | gameValue
deriving DecidableEq, Repr

namespace Control

def label : Control → String
  | newLine => "newline"
  | stop => "end"
  | boxBreak => "box_break"
  | boxBreakDelayed => "box_break_delayed"
  | boxBreak2 => "box_break2"
  | carriageReturn => "carriage_return"
  | shift => "shift"
  | goto => "goto"
  | quickTextOn => "quicktext_on"
  | quickTextOff => "quicktext_off"
  | persistent => "persistent"
  | event => "event"
  | awaitButton => "await_button"
  | fade => "fade"
  | fade2 => "fade2"
  | proceed => "continue"
  | delay => "delay"
  | delayEnd => "delay_end"
  | playerName => "name"
  | ocarina => "ocarina"
  | sound => "sound"
  | itemIcon => "item_icon"
  | textSpeed => "text_speed"
  | background => "background"
  | marathonTime => "marathon_time"
  | raceTime => "race_time"
  | points => "points"
  | goldSkulltulas => "gold_skulltulas"
  | swampCruiseHits => "swamp_cruise_hits"
  | strayFairies => "stray_fairies"
  | reserved => "reserved"
  | unskippable => "unskippable"
  | twoChoice => "two_choice"
  | threeChoice => "three_choice"
  | fishWeight => "fish_weight"
  | highScore => "high_score"
  | time => "time"
  | gameValue => "value"

def all : List Control :=
  [newLine, stop, boxBreak, boxBreakDelayed, boxBreak2, carriageReturn, shift, goto,
    quickTextOn, quickTextOff, persistent, event, awaitButton, fade, fade2, proceed, delay,
    delayEnd, playerName, ocarina, sound, itemIcon, textSpeed, background, marathonTime,
    raceTime, points, goldSkulltulas, swampCruiseHits, strayFairies, reserved, unskippable,
    twoChoice, threeChoice, fishWeight, highScore, time, gameValue]

/-- Whether the text goes on in a new box. -/
def isBoxBreak : Control → Bool
  | boxBreak | boxBreakDelayed | boxBreak2 => true
  | _ => false

/-- Whether the game shows a number or a name in place of the code. -/
def isPlaceholder : Control → Bool
  | playerName | marathonTime | raceTime | points | goldSkulltulas | swampCruiseHits
  | strayFairies | fishWeight | highScore | time | gameValue => true
  | _ => false

end Control

inductive Fragment
  | text (run : String)
  | color (color : TextColor)
  | button (button : Button)
  | control (code : Control) (argument : Option Nat)
deriving DecidableEq

namespace Fragment

def code? : Fragment → Option Control
  | control code _ => some code
  | _ => none

/-- A fragment as markup: codes and colours in angle brackets, buttons in square ones. -/
def markup : Fragment → String
  | text run => run
  | color shown => "<" ++ shown.label ++ ">"
  | button pressed => "[" ++ pressed.label ++ "]"
  | control code none => "<" ++ code.label ++ ">"
  | control code (some argument) =>
    "<" ++ code.label ++ ":0x" ++ Numeral.lowerHex 1 argument ++ ">"

/-- The text that a player reads, with placeholders for names and numbers. -/
def plain : Fragment → String
  | text run => run
  | color _ => ""
  | button pressed => "[" ++ pressed.label ++ "]"
  | control code _ =>
    if code = .newLine ∨ code = .carriageReturn then "\n"
    else if code.isBoxBreak then "\n\n"
    else if code.isPlaceholder then "[" ++ code.label ++ "]"
    else ""

def markupAll (fragments : List Fragment) : String := String.join (fragments.map markup)

def plainAll (fragments : List Fragment) : String := String.join (fragments.map plain)

/-- Adds a character to fragments of which the last comes first. -/
def pushChar (c : Char) : List Fragment → List Fragment
  | .text run :: before => .text (run.push c) :: before
  | before => .text (String.singleton c) :: before

/-- Adds a text to fragments of which the last comes first. An empty text adds nothing. -/
def pushText (text : String) (before : List Fragment) : List Fragment :=
  if text.isEmpty then before
  else
    match before with
    | .text run :: before => .text (run ++ text) :: before
    | before => .text text :: before

end Fragment

end Cartridge.Message
