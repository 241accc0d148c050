import Styling.Hint

/-!
# Names of types

The names that every annotation knows, and what they mean there.
-/

namespace Styling

/-- The classes that have a name in annotations and no style values. -/
def foreignKinds : List String :=
  ["ArithmeticError", "AssertionError", "AttributeError", "BaseException", "BaseExceptionGroup",
   "BlockingIOError", "BrokenPipeError", "BufferError", "BytesWarning", "ChildProcessError",
   "ConnectionAbortedError", "ConnectionError", "ConnectionRefusedError",
   "ConnectionResetError", "DeprecationWarning", "EOFError", "EncodingWarning", "Exception",
   "ExceptionGroup", "FileExistsError", "FileNotFoundError", "FloatingPointError",
   "FutureWarning", "GeneratorExit", "ImportError", "ImportWarning", "IndentationError",
   "IndexError", "InterruptedError", "IsADirectoryError", "KeyError", "KeyboardInterrupt",
   "LookupError", "MemoryError", "ModuleNotFoundError", "NameError", "NotADirectoryError",
   "NotImplementedError", "OSError", "OverflowError", "PendingDeprecationWarning",
   "PermissionError", "ProcessLookupError", "RecursionError", "ReferenceError",
   "ResourceWarning", "RuntimeError", "RuntimeWarning", "StopAsyncIteration", "StopIteration",
   "SyntaxError", "SyntaxWarning", "SystemError", "SystemExit", "TabError", "TimeoutError",
   "TypeError", "UnboundLocalError", "UnicodeDecodeError", "UnicodeEncodeError", "UnicodeError",
   "UnicodeTranslateError", "UnicodeWarning", "UserWarning", "ValueError", "Warning",
   "ZeroDivisionError", "bytearray", "bytes", "classmethod", "complex", "enumerate", "filter",
   "frozenset", "map", "memoryview", "property", "range", "reversed", "set", "slice",
   "staticmethod", "super", "type", "zip"]

/-- The classes with a second name. -/
def renamedKinds : List (String × String) :=
  [("EnvironmentError", "OSError"), ("IOError", "OSError")]

/-- The functions that have a name in annotations. -/
def functionNames : List String :=
  ["__build_class__", "__import__", "abs", "aiter", "all", "anext", "any", "ascii", "bin",
   "breakpoint", "callable", "chr", "compile", "delattr", "dir", "divmod", "eval", "exec",
   "format", "getattr", "globals", "hasattr", "hash", "hex", "id", "input", "isinstance",
   "issubclass", "iter", "len", "locals", "max", "min", "next", "oct", "open", "ord", "pow",
   "print", "repr", "round", "setattr", "sorted", "sum", "vars"]

/-- The hint that a name means unless the class gives it another meaning. -/
def Hint.named? (name : String) : Option Hint :=
  match name with
  | "Any" => some .any
  | "None" => some .null
  | "object" => some (.kind .object)
  | "int" => some (.kind .int)
  | "float" => some (.kind .float)
  | "str" => some (.kind .str)
  | "bool" => some (.kind .bool)
  | "list" => some (.kind .list)
  | "dict" => some (.kind .dict)
  | "tuple" => some (.kind .tuple)
  | "Color" => some (.kind .color)
  | "Insets" => some (.kind .insets)
  | "Dimension" => some (.kind .dimension)
  | "Font" => some (.kind .font)
  | "T" => some (.variable "T")
  | "Final" => some (.form "Final")
  | "Optional" => some (.form "Optional")
  | "Union" => some (.form "Union")
  | "Literal" => some (.form "Literal")
  | "ClassVar" => some (.form "ClassVar")
  | "Annotated" => some (.kind (.other "Annotated"))
  | "True" => some (.other (.flag true))
  | "False" => some (.other (.flag false))
  | "__debug__" => some (.other (.flag true))
  | "Ellipsis" => some .ellipsis
  | "NotImplemented" => some (.object "NotImplementedType" "NotImplemented")
  | name =>
    if foreignKinds.contains name then some (.kind (.other name))
    else if functionNames.contains name then
      some (.object "builtin_function_or_method" ("<built-in function " ++ name ++ ">"))
    else (lookupIn name renamedKinds).map fun shown => .kind (.other shown)

end Styling
