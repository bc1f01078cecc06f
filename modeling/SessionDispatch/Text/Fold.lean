/-!
# Words without regard to case

Folding maps a character to its lower-case form where that form is an ASCII letter, which is all
that matters when a text is compared with an ASCII word. Besides the ASCII capitals only the Kelvin
sign has such a form.
-/

namespace SessionDispatch

def foldChar (c : Char) : Char := if c = '\u212a' then 'k' else c.toLower

/-- The text in lower case, as far as ASCII words are concerned. -/
def foldCase (s : String) : String := s.map foldChar

example : foldCase "SLIDING" = "sliding" := by cbv

end SessionDispatch
