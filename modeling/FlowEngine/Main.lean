import FlowEngine.Cli.Program
import FlowEngine.Engine.Activity
import Std.Time.DateTime
import Std.Time.Format
import Std.Time.Zoned

/-!
# The command line

The program runs on the real files, the real clock, and random numbers.
-/

namespace FlowEngine.Main

/-! ## Files -/

/-- Why a file could not be used. -/
def fileError : IO.Error → Store.FileError
  | .noFileOrDirectory _ 20 _ => .notDirectory
  | .noFileOrDirectory _ _ _ => .notFound
  | .noSuchThing _ _ _ => .notFound
  | .alreadyExists _ _ _ => .alreadyThere
  | .inappropriateType _ 20 _ => .notDirectory
  | .inappropriateType _ _ _ => .isDirectory
  | .permissionDenied _ code details =>
    .other (details ++ " (os error " ++ toString code.toNat ++ ")")
  | e => .other (toString e)

/-- Does something with a file. -/
def attempt {α : Type} (action : IO α) : IO (Except Store.FileError α) := do
  try
    let a ← action
    pure (.ok a)
  catch e => pure (.error (fileError e))

/-- The files of the machine. Something that cannot be read is there all the same. -/
def files : Store.Files IO where
  isThere path := do
    match ← attempt (IO.FS.readFile path) with
    | .error .notFound | .error .notDirectory => pure false
    | _ => pure true
  read path := attempt (IO.FS.readFile path)
  write path text := attempt (IO.FS.writeFile path text)
  touch path := attempt (IO.FS.withFile path .append fun _ => pure ())
  makeDirectory path := attempt (IO.FS.createDirAll path)

/-! ## Chance and time -/

/-- Where random numbers come from, and the number that the next identifier is made from. -/
structure Chance where
  generator : StdGen
  next : Nat

/-- Identifiers are made from numbers this far apart. -/
def stride : Nat := 0x9E3779B97F4A7C15

/-- Hexadecimal digits of a number, as many as asked for. -/
def hexDigits (count n : Nat) : List Char :=
  let ds := Nat.toDigits 16 (n % Nat.pow 16 count)
  List.replicate (count - ds.length) '0' ++ ds

/-- A random identifier: 32 hexadecimal digits in five groups; two digits say that it is random. -/
def identifier (n : Nat) : String :=
  let groups := [hexDigits 8 n, hexDigits 4 (n >>> 32), '4' :: hexDigits 3 (n >>> 48),
    hexDigits 1 (8 + (n >>> 60) % 4) ++ hexDigits 3 (n >>> 62), hexDigits 12 (n >>> 74)]
  "-".intercalate (groups.map String.ofList)

/-- The next identifier. -/
def Chance.identifier (c : Chance) : String × Chance :=
  (Main.identifier c.next, { c with next := c.next + stride })

/-- A pause is up to a quarter longer than asked for. -/
def Chance.stretch (c : Chance) (nanos : Nat) : Chance × Nat :=
  let (extra, generator) := randNat c.generator 0 (nanos / 4)
  ({ c with generator := generator }, nanos + extra)

/-- Random numbers for the time that the program runs. -/
def chance : IO Chance := do
  let bytes ← IO.getRandomBytes 16
  let seed ← IO.rand 0 0x80000000
  pure ⟨mkStdGen seed, bytes.toList.foldl (fun n b => 256 * n + b.toNat) 0⟩

/-- The point in time that the clock shows. -/
def clockTime : IO Time.Instant := do
  let t ← Std.Time.Timestamp.now
  let nanos := t.toNanosecondsSinceUnixEpoch.toInt
  pure ⟨nanos / 1000000000, (nanos % 1000000000).toNat⟩

/-- A point in time some milliseconds after another one. -/
def later (t : Time.Instant) (milliseconds : Nat) : Time.Instant :=
  let nanos : Nat := t.nanos + milliseconds * 1000000
  ⟨t.seconds + (nanos / 1000000000 : Nat), nanos % 1000000000⟩

/-! ## Walks -/

/-- The answers that a walk gets when it begins at a point in time. -/
def world (begin_ : Time.Instant) :
    Engine.World Chance Time.Instant Block.Call Block.Reply where
  clock _ now := ⟨later begin_ now, now * 1000000⟩
  reply c now call :=
    let (id, c) := c.identifier
    let reply := match call.target with
      | .block _ action => Block.coreReply ⟨later begin_ now, id⟩ action call.request
      | .code => none
    (c, 0, reply.getD .crash)
  stretch := Chance.stretch

/-- Lets time pass until a point in milliseconds, and gives the point that is reached. -/
partial def waitUntil (begin_ deadline : Nat) : IO Nat := do
  let now := (← IO.monoMsNow) - begin_
  if deadline ≤ now then pure now
  else
    IO.sleep (min (deadline - now) 1000000).toUInt32
    waitUntil begin_ deadline

/-- Lets time pass until a walk has ended. -/
partial def finish (w : Engine.World Chance Time.Instant Block.Call Block.Reply) (begin_ : Nat)
    (p : Engine.Activity Time.Instant Block.Call Block.Reply Engine.Result) (c : Chance) :
    IO (Engine.Result × Chance) := do
  match p, p.deadline? with
  | .finished result, _ => pure (result, c)
  | p, some deadline =>
    let now ← waitUntil begin_ deadline
    let (p, c) := p.poll w now c
    finish w begin_ p c
  | _, none => throw (IO.userError "the run cannot go on")

/-- Performs a walk, and measures how long it takes. -/
def perform (source : IO.Ref Chance) (walk : Engine.Walk) : IO (Engine.Result × Nat) := do
  let begin_ ← IO.monoMsNow
  let w := world (← clockTime)
  let (p, c) := Engine.start w 0 walk (← source.get)
  let (result, c) ← finish w begin_ p c
  source.set c
  pure (result, (← IO.monoMsNow) - begin_)

/-! ## The machine -/

/-- Where the settings of the user are. -/
def configDirectory : IO (Option String) := do
  match ← IO.getEnv "XDG_CONFIG_HOME" with
  | some directory => if directory.startsWith "/" then pure (some directory) else home
  | none => home
where
  /-- The default place for settings. -/
  home : IO (Option String) := do
    pure ((← IO.getEnv "HOME").map fun h => Store.join h ".config")

/-- The local time as it is written in the names of log files. -/
def stamp : IO String := do
  pure ((← Std.Time.PlainDateTime.now).format "uuuuMMdd-HHmmss")

/-- The machine that the program runs on. -/
def machine : IO (Cli.Machine IO) := do
  let source ← IO.mkRef (← chance)
  let directory ← configDirectory
  pure {
    files := files
    print := fun p => do
      IO.print p.output
      IO.eprint p.errors
    freshId := source.modifyGet Chance.identifier
    perform := perform source
    stamp := stamp
    configDirectory := directory }

end FlowEngine.Main

/-- Runs the program. -/
def main (args : List String) : IO UInt32 := do
  let code ← (← FlowEngine.Main.machine).start args
  pure code.toUInt32
