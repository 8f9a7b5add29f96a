import ZeptoPM.Sqlite
import ZeptoPM.Text

/- The texts the daemon writes for the workers of channel jobs: the prompt such
   a worker starts with, the one that asks for its final answer, and the artifact
   made of a channel's history. -/
namespace ZeptoPM

/-- What a channel job's worker is told when it starts. -/
def buildChannelJobSetupPrompt (job : Job) (inputArtifacts : List String) : String :=
  let prompt := "You are executing orchestrated job '" ++ job.jobId ++ "'.\nRole: " ++ job.role ++
    "\nInstruction: " ++ job.instruction ++ "\nWorkspace: " ++ job.workspaceDir ++
    "\n\nYou may receive routed messages from peer agents through the orchestrator. Wait for the next routed message before doing substantive work."
  let inputs := if inputArtifacts.isEmpty then ""
    else "\n\nInput artifact paths:" ++ String.join (inputArtifacts.map (fun path => "\n- " ++ path))
  prompt ++ inputs ++ "\n\nReply with a brief ACK only."

def channelTranscript (channel : Channel) : String :=
  "\n\nChannel " ++ channel.channelId ++ " (" ++ channel.mode.text ++ "):" ++
    if channel.history.isEmpty then "\n- No routed messages were captured."
    else String.join (channel.history.map (fun msg =>
      "\n- " ++ msg.fromJob ++ " [round " ++ toString msg.round ++ "]: " ++ msg.content))

/-- What a channel job's worker is asked for when its last channel has closed. -/
def buildChannelCompletionPrompt (job : Job) (channels : List Channel) : String :=
  "You are finishing orchestrated job '" ++ job.jobId ++ "'.\nRole: " ++ job.role ++
    "\nInstruction: " ++ job.instruction ++
    "\n\nProduce the final best answer for your job based on the channel discussion. Respond only with the final deliverable content, not an explanation of your process." ++
    String.join (channels.map channelTranscript)

def channelSection (channel : Channel) : String :=
  "\n## Channel " ++ channel.channelId ++ "\nMode: " ++ channel.mode.text ++ "\n" ++
    if channel.history.isEmpty then "\nNo routed messages were captured.\n"
    else String.join (channel.history.map (fun msg =>
      "\n### " ++ msg.fromJob ++ " (round " ++ toString msg.round ++ ")\n" ++ msg.content ++ "\n"))

/-- The artifact of a channel job: its final answer, if any, and its channels. -/
def buildChannelArtifactContent (job : Job) (channels : List Channel)
    (finalResponse : Option String) : String :=
  let answer := match finalResponse with
    | some response => .ofList (Text.trim response.toList) ++ "\n\n---\n\n"
    | none => ""
  answer ++ "# Channel Output\n\nJob ID: " ++ job.jobId ++ "\nRole: " ++ job.role ++
    "\nInstruction: " ++ job.instruction ++ "\n" ++ String.join (channels.map channelSection)

end ZeptoPM
