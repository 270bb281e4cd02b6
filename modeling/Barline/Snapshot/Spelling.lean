import Barline.Text.Basic

/-!
# Spellings — the names of the fields of a snapshot

Some fields may be spelled in more than one way. When a mapping has several spellings of one field, the first
one listed here counts.
-/

namespace Barline.Spelling

def settings : List Text := ["settings"]
def points : List Text := ["points"]
def output : List Text := ["output"]

def beatsPerBar : List Text := ["beats_per_bar", "beatsPerBar"]
def beatUnit : List Text := ["beat_unit", "beatUnit"]
def bars : List Text := ["bars"]

def start : List Text := ["start", "start_beat", "startBeat"]
def duration : List Text := ["duration", "dur"]
def notes : List Text := ["notes"]
def repeats : List Text := ["repeat"]

def scale : List Text := ["scale"]
def root : List Text := ["root"]
def degree : List Text := ["degree"]
def octave : List Text := ["octave"]
def legato : List Text := ["legato"]
def amp : List Text := ["amp"]
def strum : List Text := ["strum"]

def instrument : List Text := ["instrument"]
def loopCount : List Text := ["loop_count", "loopCount"]
def compress : List Text := ["compress"]

end Barline.Spelling
