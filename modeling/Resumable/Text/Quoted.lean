import Resumable.Text.Printable
import Resumable.Text.Units

/-! Two ways to write a text between double quotes: for a reader of diagnostics, and for JSON. -/
namespace Resumable.Text

/-- One character as a diagnostic shows it: short escapes for the common ones, the code point in
braces for one without a shape of its own. -/
def shownChar (c : Char) : List Char :=
  if c == '\x00' then ['\\','0']
  else if c == '\t' then ['\\','t']
  else if c == '\r' then ['\\','r']
  else if c == '\n' then ['\\','n']
  else if c == '\\' then ['\\','\\']
  else if c == '"' then ['\\','"']
  else if isExtending c || !isPrintable c then
    ['\\','u','\x7b'] ++ hexDigits c.toNat ++ ['\x7d']
  else [c]

def shown (text : String) : String := String.ofList ('"' :: text.toList.flatMap shownChar ++ ['"'])

def jsonChar (c : Char) : List Char :=
  if c == '"' then ['\\','"']
  else if c == '\\' then ['\\','\\']
  else if c == '\x08' then ['\\','b']
  else if c == '\x0c' then ['\\','f']
  else if c == '\n' then ['\\','n']
  else if c == '\r' then ['\\','r']
  else if c == '\t' then ['\\','t']
  else if c.toNat < 0x20 then ['\\','u'] ++ paddedHex 4 c.toNat
  else [c]

def jsonQuoted (text : String) : String := String.ofList ('"' :: text.toList.flatMap jsonChar ++ ['"'])

end Resumable.Text
