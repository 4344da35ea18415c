import DollarMath.Proofs.Command.Line
import DollarMath.Proofs.Service.Answer

/-!
# One conversion on all surfaces

The standard output, an output file, a source that is replaced and the answer to a request hold
the same conversion of the same texts.
-/

namespace DollarMath
namespace Command

/-- What a run delivers for the texts that it has read: their conversions, parted by empty lines,
with a line end behind them. -/
def delivery (texts : List Text) : Text :=
  Text.closeLine ((Text.ofString "\n\n").intercalate (texts.map convert))

variable {habits : Habits} {line : List Text} {sources : List Source} {world : World}

section ToOutput

variable {arguments : Arguments}

theorem closeLine_joined_behind (toOutput : arguments.inPlace = false)
    (utf8 : world.ReadsUtf8 sources) :
    Text.closeLine (Progress.behind arguments world sources).joined =
      delivery (world.texts sources) := by
  rw [Progress.joined, (Progress.behind_of_toOutput toOutput utf8).1, delivery]

theorem run_of_stdout (asks : Asks habits line sources none false)
    (utf8 : world.ReadsUtf8 sources) :
    (run habits line world).stdout = delivery (world.texts sources) ∧
      (run habits line world).exit =
        if (world.readings sources).countP Option.isNone = 0 then 0 else 1 := by
  obtain ⟨arguments, parsed, toConvert, rfl, stdout, toOutput⟩ := asks
  have failures := (Progress.behind_of_toOutput toOutput utf8).2
  rw [(Starts.of_toOutput parsed toConvert toOutput).run_eq,
    Progress.finish_of_stdout toOutput stdout, Progress.exit_conclude, Progress.stdout_conclude,
    failures, closeLine_joined_behind toOutput utf8]
  exact ⟨rfl, rfl⟩

theorem run_of_output {output : Text} (asks : Asks habits line sources (some output) false)
    (utf8 : world.ReadsUtf8 sources)
    (writable : (world.store.write (Path.ofText output)
      (Utf8.encode (delivery (world.texts sources)))).2 = none) :
    (run habits line world).store.Holds (Path.ofText output)
        (Utf8.encode (delivery (world.texts sources))) ∧
      (run habits line world).exit =
        if (world.readings sources).countP Option.isNone = 0 then 0 else 1 := by
  obtain ⟨arguments, parsed, toConvert, rfl, saved, toOutput⟩ := asks
  have store := Progress.store_behind_of_toOutput toOutput world arguments.sourcesOrStdin
  have joined := closeLine_joined_behind toOutput utf8
  have failures := (Progress.behind_of_toOutput toOutput utf8).2
  set behind := Progress.behind arguments world arguments.sourcesOrStdin
  rcases written : behind.world.writeText output behind.joined with ⟨later, fault⟩
  have writes := World.writes_of_writeText written
  have noFault : fault = none := by
    rw [← writable, ← store, ← joined]
    exact (congrArg Prod.snd written).symm
  subst noFault
  rw [joined] at writes
  rw [(Starts.of_toOutput parsed toConvert toOutput).run_eq,
    Progress.finish_of_saved toOutput saved written, Progress.exit_conclude,
    Progress.store_conclude]
  refine ⟨writes.holds, ?_⟩
  rw [← failures]
  rfl

end ToOutput

section Single

variable {name text : Text} {bytes : Bytes}

theorem run_of_replaced (asks : Asks habits line [.file name] none true)
    (read : world.store.read (Path.ofText name) = .ok bytes)
    (held : Text.ofBytes? bytes = some text)
    (writable : (world.store.write (Path.ofText name) (Utf8.encode (delivery [text]))).2 = none) :
    (run habits line world).store.Holds (Path.ofText name) (Utf8.encode (delivery [text])) := by
  obtain ⟨arguments, parsed, toConvert, sources, output, inPlace⟩ := asks
  have starts : Starts habits line arguments :=
    ⟨parsed, toConvert, by simp [Arguments.Clashes, output, sources]⟩
  have single : delivery [text] = Text.closeLine (convert text) := by
    rw [delivery, List.map_singleton, List.intercalate_singleton]
  have readText : world.readText (.file name) = (.ok text, world) :=
    Prod.ext (World.readText_file_eq_ok_iff.mpr ⟨bytes, read, held⟩)
      (world.readText_file_snd name)
  rcases written : world.writeText name (convert text) with ⟨later, fault⟩
  have writes := World.writes_of_writeText written
  rw [single] at writable ⊢
  have noFault : fault = none := by
    rw [← writable]
    exact (congrArg Prod.snd written).symm
  subst noFault
  have turns : Turns arguments world [⟨.file name, .replaced (Report.ofText text)⟩] later :=
    .cons (.replaced inPlace readText written) (.nil later)
  obtain ⟨accounts, named, turns', _⟩ := Progress.exists_accounts arguments world [.file name]
  rw [starts.run_eq, Progress.finish_of_inPlace inPlace, Progress.store_conclude, sources,
    ← (turns.unique turns' named.symm).2]
  exact writes.holds

theorem texts_singleton (read : world.store.read (Path.ofText name) = .ok bytes)
    (held : Text.ofBytes? bytes = some text) : world.texts [.file name] = [text] := by
  simp [World.texts, World.readings, World.contents, read, held, Except.toOption]

end Single

/-- All surfaces deliver the same conversion.  Whatever the sources are, a run that writes to a
file leaves in it the form of what the same run to the standard output writes there, which is what
the texts of the sources convert to, and both have the same exit code; the standard input is taken
to be read as UTF-8, and the file to take what is written.  A single file that is converted in place
comes to hold the same, and whichever framework carries a request to convert its text, the answer
is the conversion. -/
theorem surfaces_deliver_the_same_conversion {habits : Habits} :
    (∀ {plain saving : List Text} {sources : List Source} {output : Text} {world : World},
      Asks habits plain sources none false → Asks habits saving sources (some output) false →
      world.ReadsUtf8 sources →
      (world.store.write (Path.ofText output)
        (Utf8.encode (delivery (world.texts sources)))).2 = none →
        (run habits plain world).stdout =
          Text.closeLine ((Text.ofString "\n\n").intercalate
            ((world.texts sources).map convert)) ∧
        (run habits saving world).store.Holds (Path.ofText output)
          (Utf8.encode (run habits plain world).stdout) ∧
        (run habits saving world).exit = (run habits plain world).exit) ∧
    ∀ {plain replacing : List Text} {name text : Text} {bytes : Bytes} {world : World},
      Asks habits plain [.file name] none false → Asks habits replacing [.file name] none true →
      world.store.read (Path.ofText name) = .ok bytes → Text.ofBytes? bytes = some text →
      (world.store.write (Path.ofText name) (Utf8.encode (delivery [text]))).2 = none →
        (run habits replacing world).store.Holds (Path.ofText name)
          (Utf8.encode (run habits plain world).stdout) ∧
        ∀ framework : Service.Framework, framework.Carries → ∀ limit : Int, text.length ≤ limit →
          ∃ body,
            framework.respond (Service.handlers limit) (.toConvert text) = ⟨200, body⟩ ∧
            body.field? "text" = some (.string (convert text)) := by
  constructor
  · intro plain saving sources output world toStdout toFile utf8 writable
    obtain ⟨stdout, plainExit⟩ := run_of_stdout toStdout utf8
    obtain ⟨content, savingExit⟩ := run_of_output toFile utf8 writable
    exact ⟨stdout, by rwa [stdout], by rw [savingExit, plainExit]⟩
  · intro plain replacing name text bytes world toStdout inPlace read held writable
    refine ⟨?_, fun framework carries limit short => ?_⟩
    · have files : world.ReadsUtf8 [.file name] := World.readsUtf8_of_not_mem (by simp)
      rw [(run_of_stdout toStdout files).1, texts_singleton read held]
      exact run_of_replaced inPlace read held writable
    · exact ⟨_, carries.respond_of_short short, Service.field?_text text⟩

/-- A file, the standard input and a missing file, with the first of them as the output, where the
handler of the standard input has nothing to do. -/
theorem surfaces_deliver_the_same_conversion_of_three :
    let habits : Habits := ⟨false, true, true⟩
    let store : Store := ⟨[(⟨["a.md"]⟩, .file (Utf8.encode "\\(x\\)"))], ⟨[]⟩, .roomy⟩
    let world : World := ⟨store, Utf8.encode "y\r\n", ⟨fun _ _ => .ok []⟩⟩
    ((run habits ["a.md", "-", "no.md"] world).stdout = "$x$\n\ny\n" ∧
      (run habits ["a.md", "-", "no.md", "-o", "a.md"] world).store.Holds (Path.ofText "a.md")
        (Utf8.encode "$x$\n\ny\n") ∧
      (run habits ["a.md", "-", "no.md", "-o", "a.md"] world).exit =
        (run habits ["a.md", "-", "no.md"] world).exit) ∧
    (run habits ["--in-place", "a.md"] world).store.Holds (Path.ofText "a.md")
      (Utf8.encode (run habits ["a.md"] world).stdout) ∧
    Service.Framework.ofEndpoints.Carries ∧
    ∃ body, Service.Framework.ofEndpoints.respond (Service.handlers 6) (.toConvert "\\(x\\)") =
        ⟨200, body⟩ ∧
      body.field? "text" = some (.string (convert "\\(x\\)")) := by
  intro habits store world
  have file : IsOperand "a.md" := isOperand_of_head?_ne (by decide)
  have missing : IsOperand "no.md" := isOperand_of_head?_ne (by decide)
  constructor
  · have operands : ∀ name ∈ [Text.ofString "a.md", "-", "no.md"], IsOperand name := by
      simp [file, missing, isOperand_dash]
    have utf8 : world.ReadsUtf8 (Source.ofOperands ["a.md", "-", "no.md"]) :=
      fun _ => .inr ⟨_, Utf8.decode_encode _⟩
    have delivered : Text.closeLine ((Text.ofString "\n\n").intercalate
        ((world.texts (Source.ofOperands ["a.md", "-", "no.md"])).map convert)) =
          "$x$\n\ny\n" := by
      decide +kernel
    obtain ⟨stdout, content, exit⟩ := surfaces_deliver_the_same_conversion.1
      (asks_operands operands) (asks_operands_output operands file (by decide)) utf8 rfl
    rw [delivered] at stdout
    rw [stdout] at content
    exact ⟨stdout, content, exit⟩
  · have operands : ∀ name ∈ [Text.ofString "a.md"], IsOperand name := by
      simp [file]
    have read : world.store.read (Path.ofText "a.md") = .ok (Utf8.encode "\\(x\\)") := by decide
    have held : Text.ofBytes? (Utf8.encode "\\(x\\)") = some "\\(x\\)" := by
      rw [Text.ofBytes?, Utf8.decode_encode]
      rfl
    obtain ⟨content, answer⟩ := surfaces_deliver_the_same_conversion.2
      (asks_operands operands) (asks_inPlace_operands operands) read held rfl
    have carries := Service.carries_ofEndpoints
    exact ⟨content, carries, answer _ carries 6 (by decide)⟩

end Command
end DollarMath
