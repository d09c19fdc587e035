import Mathlib.Data.UInt

/-!
# Button input

The model of `deck_button_input.cpp`: the samples of an active-low button are debounced and its
presses are told apart by how long they are held.
-/

namespace RlcdDeck.BoardSupport

/-- `deck_button_input_event_t`. -/
inductive Event where
  | none
  | shortPress
  | longPress
  deriving DecidableEq

/-- One call of `deck_button_input_sample`. -/
structure Sample where
  levelHigh : Bool
  nowMs : UInt64

/-- `deck_button_input_t`. -/
structure ButtonInput where
  debounceMs : UInt32
  longPressMs : UInt32
  rawChangedMs : UInt64
  pressStartedMs : UInt64
  rawLevelHigh : Bool
  stableLevelHigh : Bool
  pressActive : Bool
  longPressEmitted : Bool

/-- `deck_button_input_create`. -/
def create (debounceMs longPressMs : UInt32) : Option ButtonInput :=
  if debounceMs = 0 ∨ longPressMs = 0 then none
  else
    some
      { debounceMs := debounceMs
        longPressMs := longPressMs
        rawChangedMs := 0
        pressStartedMs := 0
        rawLevelHigh := true
        stableLevelHigh := true
        pressActive := false
        longPressEmitted := false }

/-- The first step of `deck_button_input_sample`: a change of the electrical level is noted. -/
def ButtonInput.noteLevel (button : ButtonInput) (s : Sample) : ButtonInput :=
  if s.levelHigh = button.rawLevelHigh then button
  else { button with rawLevelHigh := s.levelHigh, rawChangedMs := s.nowMs }

/-- The last steps of `deck_button_input_sample`: the electrical level becomes the stable one. -/
def ButtonInput.settle (button : ButtonInput) : Event × ButtonInput :=
  if button.rawLevelHigh = false then
    (.none,
      { button with
        stableLevelHigh := false
        pressActive := true
        longPressEmitted := false
        pressStartedMs := button.rawChangedMs })
  else if button.pressActive = false ∨ button.longPressEmitted = true then
    (.none, { button with stableLevelHigh := true })
  else
    -- The time of the press is that of the electrical levels, not of the stable ones.
    (if button.longPressMs.toUInt64 ≤ button.rawChangedMs - button.pressStartedMs then .longPress
      else .shortPress,
      { button with stableLevelHigh := true, pressActive := false })

/-- `deck_button_input_sample`. -/
def ButtonInput.sample (button : ButtonInput) (s : Sample) : Event × ButtonInput :=
  let button := button.noteLevel s
  if button.pressActive = true ∧ button.longPressEmitted = false ∧ button.rawLevelHigh = false ∧
      button.longPressMs.toUInt64 ≤ s.nowMs - button.pressStartedMs then
    (.longPress, { button with longPressEmitted := true })
  else if button.rawLevelHigh = button.stableLevelHigh ∨
      s.nowMs - button.rawChangedMs < button.debounceMs.toUInt64 then
    (.none, button)
  else button.settle

/-- The samples one after the other, with the event of each. -/
def ButtonInput.run (button : ButtonInput) : List Sample → List Event × ButtonInput
  | [] => ([], button)
  | s :: samples =>
    let rest := (button.sample s).2.run samples
    ((button.sample s).1 :: rest.1, rest.2)

end RlcdDeck.BoardSupport
