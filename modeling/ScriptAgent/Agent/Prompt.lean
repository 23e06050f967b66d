import ScriptAgent.Conversation
import ScriptAgent.Tool

/-!
# Prompts

The text that a model is given: what it is to do, the tools that it has, the rules, and the
conversation so far. Only the history, which stands between two fixed texts, changes from one call
to the next.

The tools are listed by the names that they are bound to, in the order of these names.
-/

namespace ScriptAgent.Agent

/-- Joins lines. -/
def lines (ls : List String) : String := String.intercalate "\n" ls

/-- What the model is to do, with examples. -/
def introduction : String := lines [
  "You are an expert agent who solves tasks by writing Lua code. You will be given a " ++
    "task to solve as best you can.",
  "You have access to a list of tools: these are Lua functions which you can call from " ++
    "your code.",
  "Plan forward in a series of steps, writing your reasoning and actions as Lua code.",
  "",
  "You have access to these special functions:",
  "- thought(message): log your reasoning and what you want to do next",
  "- observation(message): note what you observe from tool results or important findings",
  "- final_answer(answer): provide the final answer and end execution",
  "",
  "Your response must be a single Lua code block that includes your reasoning (using " ++
    "thought()), tool calls, observations (using observation()), and finally your answer " ++
    "(using final_answer()).",
  "",
  "Here are a few examples using notional tools:",
  "---",
  "Task: \"What is the result of the following operation: 5 + 3 + 1294.678?\"",
  "",
  "```lua",
  "thought(\"I need to compute this arithmetic operation using Lua.\")",
  "local result = 5 + 3 + 1294.678",
  "observation(\"The calculation gives us: \" .. result)",
  "final_answer(result)",
  "```",
  "",
  "---",
  "Task: \"Which city has the highest population: Guangzhou or Shanghai?\"",
  "",
  "```lua",
  "thought(\"I need the population of both cities, then compare them.\")",
  "for _, city in ipairs(\x7b\"Guangzhou\", \"Shanghai\"\x7d) do",
  "    local result = web_search(city .. \" population\")",
  "    observation(\"Population data for \" .. city .. \": \" .. tostring(result))",
  "end",
  "```",
  "",
  "(next step, after reading the observations)",
  "",
  "```lua",
  "thought(\"Shanghai has a significantly higher population than Guangzhou.\")",
  "final_answer(\"Shanghai\")",
  "```",
  ""]

/-- The rules that the model has to follow. -/
def rules : String := lines [
  "Here are the rules you should always follow to solve your task:",
  "1. Write valid Lua code in a single code block.",
  "2. Use thought() to explain your reasoning and what you plan to do next.",
  "3. Use observation() to note tool results and intermediate findings. Only output you " ++
    "print reaches the next step.",
  "4. Always call final_answer() when you have the solution.",
  "5. Use only variables that you have defined.",
  "6. Pass tool arguments directly, as in 'search(\"James Bond\")', not as a table.",
  "7. A tool that fails returns nil. Check results before relying on them.",
  "8. Never re-do a tool call that you previously did with the exact same parameters.",
  "9. Don't name any new variable after a tool or special function such as 'final_answer'.",
  "10. Global variables persist between code executions; locals do not.",
  "11. Don't give up! You're in charge of solving the task, not providing directions to " ++
    "solve it.",
  ""]

/-- The tools by name. -/
def sortTools (tools : List (String × Tool)) : List (String × Tool) :=
  tools.mergeSort fun a b => a.1 ≤ b.1

/-- The descriptions of tools, each on lines of its own. -/
def describeTools (tools : List (String × Tool)) : String :=
  lines ((sortTools tools).map fun (name, t) => t.describe name)

/-- The descriptions of tools, or a remark that there are none. -/
def toolsBlock (tools : List (String × Tool)) : String :=
  let text := describeTools tools
  if text.isEmpty then "-- (no tools available)" else text

/-- The part of a prompt before the history. -/
def opening (tools : List (String × Tool)) : String := lines [
  introduction,
  "Above examples were using notional tools that might not exist for you. On top of " ++
    "performing computations in Lua, you only have access to these tools, behaving like " ++
    "regular Lua functions:",
  "```lua",
  toolsBlock tools,
  "```",
  "",
  rules,
  "Conversation history:",
  ""]

/-- The part of a prompt after the history. -/
def closing : String := lines ["", "", "Now write code to solve the user's task:", ""]

/-- The prompt for a conversation. -/
def prompt (tools : List (String × Tool)) (c : Conversation) : String :=
  opening tools ++ c.render ++ closing

end ScriptAgent.Agent
