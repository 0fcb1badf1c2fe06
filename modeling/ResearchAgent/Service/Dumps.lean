import Mathlib.Data.List.Sort
import ResearchAgent.Service.Contracts

namespace ResearchAgent.Service

open JobQueue

-- The arguments of `json.dumps` that the program uses.
structure DumpStyle where
  item_separator : String := ", "
  key_separator : String := ": "
  sort_keys : Bool := false

def DumpStyle.compact : DumpStyle := ⟨",", ":", true⟩

def unicode_escape (unit : ℕ) : String :=
  "\\u" ++ String.ofList [(unit / 4096).digitChar, (unit / 256 % 16).digitChar,
    (unit / 16 % 16).digitChar, (unit % 16).digitChar]

-- All but printable ASCII is escaped, in UTF-16 units.
def escape_char (char : Char) : String :=
  match char with
  | '"' => "\\\""
  | '\\' => "\\\\"
  | '\n' => "\\n"
  | '\r' => "\\r"
  | '\t' => "\\t"
  | '\x0c' => "\\f"
  | '\x08' => "\\b"
  | char =>
      if between ' ' '~' char then char.toString
      else if char.toNat < 65536 then unicode_escape char.toNat
      else
        unicode_escape (55296 + (char.toNat - 65536) / 1024) ++
          unicode_escape (56320 + (char.toNat - 65536) % 1024)

def dump_str (text : String) : String := "\"" ++ String.join (text.toList.map escape_char) ++ "\""

def DumpStyle.order (style : DumpStyle) (entries : List (String × String)) :
    List (String × String) :=
  if style.sort_keys then entries.insertionSort fun entry other => entry.1 ≤ other.1 else entries

def DumpStyle.join (style : DumpStyle) (entries : List (String × String)) : String :=
  style.item_separator.intercalate
    ((style.order entries).map fun entry => dump_str entry.1 ++ style.key_separator ++ entry.2)

-- `json.dumps`. `float_repr` is `float.__repr__`.
mutual

def dumps (style : DumpStyle) (float_repr : ℚ → String) : JSONValue → String
  | .null => "null"
  | .bool true => "true"
  | .bool false => "false"
  | .int value => toString value
  | .float value => float_repr value
  | .nonfinite value => value.literal
  | .str value => dump_str value
  | .list items =>
      "[" ++ style.item_separator.intercalate (dump_items style float_repr items) ++ "]"
  | .dict entries => "\x7b" ++ style.join (dump_entries style float_repr entries) ++ "\x7d"

def dump_items (style : DumpStyle) (float_repr : ℚ → String) : List JSONValue → List String
  | [] => []
  | item :: rest => dumps style float_repr item :: dump_items style float_repr rest

def dump_entries (style : DumpStyle) (float_repr : ℚ → String) :
    List (String × JSONValue) → List (String × String)
  | [] => []
  | (key, value) :: rest =>
      (key, dumps style float_repr value) :: dump_entries style float_repr rest

end

-- The text of an object ends where its brace closes.
theorem dumps_dict_closed (style : DumpStyle) (float_repr : ℚ → String) (entries : JSONObject) :
    ∃ front, (dumps style float_repr (.dict entries)).toList = front ++ ['\x7d'] := by
  refine ⟨("\x7b" ++ style.join (dump_entries style float_repr entries)).toList, ?_⟩
  rw [dumps, String.toList_append]
  rfl

example : dumps .compact (fun _ => "") (.dict [("reason", .str "a\n☃"), ("attempt", .int 2)]) =
    "\x7b\"attempt\":2,\"reason\":\"a\\n\\u2603\"\x7d" := by decide +kernel

end ResearchAgent.Service
