import HologramLive.Inference.Completion
import HologramLive.Lib.Lines
namespace HologramLive.Inference
open Lines

def maxStreamLineBytes : Nat := 1024 * 1024
def newline : UInt8 := 10

-- One NDJSON line of a streaming response of Ollama.
structure OllamaStreamLine where
  response : Str
  done : Bool
  promptEvalCount : Option UInt64
  evalCount : Option UInt64
deriving DecidableEq

structure VllmUsage where
  promptTokens : Option UInt64
  completionTokens : Option UInt64
deriving DecidableEq

def VllmUsage.intoUsage (usage : VllmUsage) : Option TokenUsage :=
  TokenUsage.fromCounts usage.promptTokens usage.completionTokens

structure VllmChoice where
  text : Str
deriving DecidableEq

structure VllmError where
  message : Str
deriving DecidableEq

structure VllmStreamChunk where
  model : Str
  choices : List VllmChoice
  usage : Option VllmUsage
  error : Option VllmError
deriving DecidableEq

namespace OllamaEngine
variable (fromStr : Str → Except Str OllamaStreamLine)

-- Nothing, a line of the stream, or the text of an error of the JSON reader.
def readLine (line : Bytes) : Option (Except Str OllamaStreamLine) :=
  let trimmed := trimWhitespace (fromUtf8Lossy line)
  if trimmed.isEmpty then none else some (fromStr trimmed)

def line (model : Str) (elapsed : UInt64) (_ : Unit) (line : Bytes) : List Item × Option Unit :=
  match readLine fromStr line with
  | none => ([],some ())
  | some (.error error) => ([.error (.protocol ("parse ollama stream line: ".toList ++ error))],none)
  | some (.ok parsed) =>
    if parsed.done then
      (deltaOf parsed.response ++
        [.ok (.done ⟨model,TokenUsage.fromCounts parsed.promptEvalCount parsed.evalCount,none,elapsed⟩)],none)
    else (deltaOf parsed.response,some ())

def reader (model : Str) (elapsed : UInt64) : Reader Unit UInt8 Item Str where
  sep := newline
  cap := maxStreamLineBytes
  line := line fromStr model elapsed
  refused := .error (.protocol ("ollama stream line exceeded ".toList ++ decimal maxStreamLineBytes ++
    " bytes without a newline".toList))
  failed error := .error (.transport ("ollama stream failed: ".toList ++ error))
  unfinished := .error (.protocol "ollama stream ended before a done line".toList)

def completeStream (model : Str) (elapsed : UInt64) (body : List (Except Str Bytes)) : List Item :=
  (reader fromStr model elapsed).stream () [] body

end OllamaEngine

namespace VllmEngine
variable (fromStr : Str → Except Str VllmStreamChunk)

def readLine (line : Bytes) : Option Str :=
  (stripPrefix "data:".toList (trimWhitespace (fromUtf8Lossy line))).map trimWhitespace

def exceeded : Item :=
  .error (.protocol ("vLLM stream line exceeded ".toList ++ decimal maxStreamLineBytes ++ " bytes".toList))

-- The state are the model and the usage that were last told. The length of a line
-- is that of the bytes before its newline.
def line (elapsed : UInt64) (state : Str × Option TokenUsage) (line : Bytes) : List Item × Option (Str × Option TokenUsage) :=
  if maxStreamLineBytes < line.length-1 then ([exceeded],none)
  else match readLine line with
    | none => ([],some state)
    | some data =>
      if data = "[DONE]".toList then ([.ok (.done ⟨state.1,state.2,none,elapsed⟩)],none)
      else match fromStr data with
        | .error error => ([.error (.protocol ("parse vLLM stream event: ".toList ++ error))],none)
        | .ok parsed =>
          match parsed.error with
          | some error => ([.error (.transport ("vLLM stream failed: ".toList ++ error.message))],none)
          | none =>
            let model := if parsed.model.isEmpty then state.1 else parsed.model
            let usage := (parsed.usage.bind VllmUsage.intoUsage).or state.2
            (parsed.choices.flatMap fun choice => deltaOf choice.text,some (model,usage))

def reader (elapsed : UInt64) : Reader (Str × Option TokenUsage) UInt8 Item Str where
  sep := newline
  cap := maxStreamLineBytes
  line := line fromStr elapsed
  refused := exceeded
  failed error := .error (.transport ("vLLM stream failed: ".toList ++ error))
  unfinished := .error (.protocol "vLLM stream ended before [DONE]".toList)

def completeStream (model : Str) (elapsed : UInt64) (body : List (Except Str Bytes)) : List Item :=
  (reader fromStr elapsed).stream (model,none) [] body

end VllmEngine

end HologramLive.Inference
