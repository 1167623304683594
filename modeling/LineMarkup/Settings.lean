import LineMarkup.Path

/-!
Settings of a conversion. They start from defaults; layers read from files and single overrides change
them one after the other.
-/

namespace LineMarkup

set_option autoImplicit false

structure Settings where
  /-- Where converted files go. Without it, each goes beside its source. -/
  outputDir : Option Path
  outputExtension : Text
  lineSeparator : Text
  /-- How many documents are converted at a time. -/
  jobs : Option Nat
deriving DecidableEq, Repr

/-- The settings that one file holds; what it leaves out it does not change. -/
structure Layer where
  outputDir : Option Path := none
  outputExtension : Option Text := none
  lineSeparator : Option Text := none
  jobs : Option Nat := none
deriving DecidableEq, Repr

namespace Settings

def default : Settings := ⟨none, "html".toList, ['\n'], none⟩

instance : Inhabited Settings := ⟨default⟩

def merge (s : Settings) (l : Layer) : Settings where
  outputDir := l.outputDir.or s.outputDir
  outputExtension := l.outputExtension.getD s.outputExtension
  lineSeparator := l.lineSeparator.getD s.lineSeparator
  jobs := l.jobs.or s.jobs

/-- Where the HTML of a source goes. An extension that holds a slash makes no file name. -/
def outputPath (s : Settings) (source : Path) : Option Path :=
  if s.outputExtension.contains '/' then none
  else
    let converted := source.withExtension s.outputExtension
    match s.outputDir, converted.fileName? with
    | some dir, some name => some (Path.join dir name)
    | _, _ => some converted

@[simp] theorem merge_empty (s : Settings) : s.merge {} = s := rfl

end Settings

end LineMarkup
