import ApiDocs.Settings
import ApiDocs.Text.DecimalDigit
import ApiDocs.Text.Split

/-!
# Command line arguments

A command line names a model file and an output directory, with options before, between and after
them. A long option may be cut short as long as one option is meant, and its value may follow an
equals sign. After two dashes alone, every word is a positional one. Two dashes in the place of a
value stand for no value at all.
-/

namespace ApiDocs.CommandLine

open Text

/-- The options. -/
inductive Opt where
  | help | config | format | layout | apiRoot | homePage | dryRun | verbose
  deriving DecidableEq, Repr

namespace Opt

def spellings : List (Text × Opt) :=
  [ ("-h", help), ("--help", help), ("--config", config), ("--format", format),
    ("--layout", layout), ("--api-root", apiRoot), ("--home-page", homePage),
    ("--dry-run", dryRun), ("-v", verbose), ("--verbose", verbose) ]

def takesValue : Opt → Bool
  | config | format | layout | apiRoot => true
  | _ => false

/-- Whether a text may be the value of an option. -/
def accepts : Opt → Text → Bool
  | format, v => v ∈ Settings.formats
  | layout, v => v ∈ Settings.layouts
  | _, _ => true

end Opt

/-- Why the arguments are not taken: help is asked for, or they are wrong. -/
inductive Refusal where
  | help | wrong
  deriving DecidableEq, Repr

/-- The arguments of a run. -/
structure Arguments where
  model : Text := []
  /-- The output directory; two dashes may stand in its place. -/
  outDir : Option Text := none
  config : Option Text := none
  format : Option Text := none
  layout : Option Text := none
  apiRoot : Option Text := none
  homePage : Bool := false
  dryRun : Bool := false
  verbose : Bool := false
  deriving DecidableEq, Repr

/-! ### Words -/

def twoDashes : Text := "--"

/-- What a word of the command line is. -/
inductive Word where
  | positional (s : Text)
  /-- The first two dashes that stand alone. -/
  | separator
  /-- Options without a value; short ones may be joined in one word. -/
  | flags (os : List Opt)
  /-- An option with a value, which may be in the same word. -/
  | valued (o : Opt) (value : Option Text)
  /-- An option with a text attached to it that it does not take. -/
  | misused
  | unknown
  deriving DecidableEq, Repr

/-- The options that letters joined to a short option stand for, if each stands for one. -/
def joinedOptions (letters : Text) : Option (List Opt) :=
  letters.mapM fun c => Opt.spellings.lookup [.char '-', c]

/-- The word of an option in some spelling with the text attached to it. Letters may be attached to
a short option; short options have no values. -/
def optionWord (spelling : Text) (o : Opt) (attached : Option Text) : Word :=
  if o.takesValue then .valued o attached
  else match attached with
    | none => .flags [o]
    | some letters =>
      if twoDashes.isPrefixOf spelling || letters.isEmpty then .misused
      else match joinedOptions letters with
        | some os => .flags (o :: os)
        | none => .misused

/-- What a word may mean that is no full spelling: a long option cut short, or a short one with
letters joined to it. -/
def abbreviated (cs : Text) : List Word :=
  if twoDashes.isPrefixOf cs then
    let (start, attached) := cutAt '=' cs
    (Opt.spellings.filter fun s => start.isPrefixOf s.1).map fun s => optionWord s.1 s.2 attached
  else
    (Opt.spellings.filter fun s => s.1 = cs.take 2).map fun s =>
      optionWord s.1 s.2 (some (cs.drop 2))

/-- Whether a text is a dash with a number after it, which is whole or has digits after a point. -/
def isNegative : Text → Bool
  | .char '-' :: cs =>
    let (whole, fraction) := cutAt '.' cs
    whole.all isDecimalDigit &&
      match fraction with
      | none => ! whole.isEmpty
      | some ds => ! ds.isEmpty && ds.all isDecimalDigit
  | _ => false

/-- Whether a word is a negative number; one line feed may follow. -/
def isNegativeNumber (cs : Text) : Bool :=
  isNegative (if cs.getLast? = some (.char '\n') then cs.dropLast else cs)

/-- What a word in front of the separator is; one that may mean several options is wrong, whatever
stands before it. -/
def Word.ofText (cs : Text) : Except Refusal Word :=
  if cs.head? ≠ some (.char '-') || cs = "-" then .ok (.positional cs)
  else match Opt.spellings.lookup cs with
    | some o => .ok (optionWord cs o none)
    | none =>
      let (start, attached) := cutAt '=' cs
      match attached, Opt.spellings.lookup start with
      | some value, some o => .ok (optionWord start o (some value))
      | _, _ =>
        match abbreviated cs with
        | [word] => .ok word
        | [] =>
          if isNegativeNumber cs || cs.contains ' ' then .ok (.positional cs) else .ok .unknown
        | _ => .error .wrong

def wordsOf : List Text → Except Refusal (List Word)
  | [] => .ok []
  | s :: rest =>
    if s = twoDashes then .ok (.separator :: rest.map .positional)
    else do return (← Word.ofText s) :: (← wordsOf rest)

/-! ### Arguments -/

/-- What was collected from the words so far. -/
structure Collected where
  arguments : Arguments := {}
  /-- The positional words; two dashes stand for none. -/
  positionals : List (Option Text) := []
  /-- Whether there was a word that is of no use. -/
  superfluous : Bool := false

/-- A word in the place of a value. -/
def given (s : Text) : Option Text := if s = twoDashes then none else some s

def Collected.positional (c : Collected) (s : Option Text) : Collected :=
  { c with positionals := c.positionals ++ [s] }

/-- Set an option without a value. -/
def Collected.flag (c : Collected) : Opt → Except Refusal Collected
  | .help => .error .help
  | .homePage => .ok { c with arguments := { c.arguments with homePage := true } }
  | .dryRun => .ok { c with arguments := { c.arguments with dryRun := true } }
  | .verbose => .ok { c with arguments := { c.arguments with verbose := true } }
  | _ => .ok c

/-- Set an option to a value, or back to none. -/
def Collected.value (c : Collected) (o : Opt) (v : Option Text) : Except Refusal Collected :=
  if ! v.all o.accepts then .error .wrong
  else match o with
    | .config => .ok { c with arguments := { c.arguments with config := v } }
    | .format => .ok { c with arguments := { c.arguments with format := v } }
    | .layout => .ok { c with arguments := { c.arguments with layout := v } }
    | .apiRoot => .ok { c with arguments := { c.arguments with apiRoot := v } }
    | _ => .ok c

/-- Collect words from left to right. An option that lacks its value takes the next word, which has
to be a positional one. The separator goes with a positional word that stands before it, or else
with the one after it. -/
def Collected.words (c : Collected) : List Word → Except Refusal Collected
  | [] => .ok c
  | .positional s :: .separator :: ws => (c.positional (some s)).words ws
  | .separator :: .positional s :: ws => (c.positional (some s)).words ws
  | .separator :: ws => { c with superfluous := true }.words ws
  | .positional s :: ws => (c.positional (given s)).words ws
  | .unknown :: ws => { c with superfluous := true }.words ws
  | .misused :: _ => .error .wrong
  | .flags os :: ws => do (← os.foldlM Collected.flag c).words ws
  | .valued o (some v) :: ws => do (← c.value o (given v)).words ws
  | .valued o none :: .positional v :: ws => do (← c.value o (given v)).words ws
  | .valued _ none :: _ => .error .wrong

/-- The arguments that a command line gives. -/
def Arguments.ofWords (ss : List Text) : Except Refusal Arguments := do
  let c ← Collected.words {} (← wordsOf ss)
  match c.positionals with
  | [some model, outDir] =>
    if c.superfluous then throw .wrong else return { c.arguments with model, outDir }
  | _ => throw .wrong

/-- The settings with those set on the command line. An empty value sets nothing. -/
def Arguments.override (a : Arguments) (s : Settings) : Settings :=
  let set (name : Text) (v : Option Text) (s : Settings) : Settings :=
    match v.filter (· ≠ []) with
    | some v => s.set name (.text v)
    | none => s
  let s := set "api_root" a.apiRoot (set "layout" a.layout (set "format" a.format s))
  if a.homePage then s.set "include_home_page" (.bool true) else s

end ApiDocs.CommandLine
